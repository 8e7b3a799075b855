import Zeroconf.Name.HostText
import Zeroconf.Name.Reverse
import Zeroconf.QueryIds
import Zeroconf.Reply
import Zeroconf.Service

/-!
This module contains the questions that users ask: for records, for the addresses of a host, for
the host names of an address, and for the instances of a service.
-/

namespace Zeroconf

/--
A way to send queries, which may change a state.
-/
structure Lookup (σ : Type) where
  send : Message → σ → Except Error Message × σ

namespace Lookup

def nameOfText (text : String) : Except Error Name :=
  (Name.ofHostText text).mapError fun fault => .parse s!"{text}: {fault.message}"

def query (name : Name) (type : RecordType) (ids : QueryIds) : Message × QueryIds :=
  let (id, ids) := ids.fresh
  (.query id name type, ids)

/--
The records of the answer section that were asked for. A name that does not exist has none.
-/
def matching (response : Message) (name : Name) (type : RecordType) : List Record :=
  if response.code == .nxDomain then
    []
  else
    response.answers.filter fun record =>
      record.name.same name && (type == .any || record.type == type)

/--
`items` without those that are equal to their predecessor.
-/
def dropRepeats {α : Type} [BEq α] : List α → List α
  | [] => []
  | item :: items => item :: go item items
where
  go (last : α) : List α → List α
    | [] => []
    | item :: items => if item == last then go last items else item :: go item items

def addressOf : RecordData → Option IpAddress
  | .a ip => some (.v4 ip)
  | .aaaa ip => some (.v6 ip)
  | _ => none

def pointerOf : RecordData → Option Name
  | .ptr target => some target
  | _ => none

variable {σ : Type}

def records (lookup : Lookup σ) (name : Name) (type : RecordType) (s : QueryIds × σ) :
    Except Error (List Record) × QueryIds × σ :=
  let (query, ids) := query name type s.1
  let (result, world) := lookup.send query s.2
  (result.map (matching · name type), ids, world)

/--
The addresses of a host, those of IPv4 first.
-/
def hostAddresses (lookup : Lookup σ) (host : String) (s : QueryIds × σ) :
    Except Error (List IpAddress) × QueryIds × σ :=
  match nameOfText host with
  | .error error => (.error error, s)
  | .ok name =>
    match lookup.records name .a s with
    | (.error error, s) => (.error error, s)
    | (.ok v4, s) =>
      match lookup.records name .aaaa s with
      | (.error error, s) => (.error error, s)
      | (.ok v6, s) => (.ok (dropRepeats ((v4 ++ v6).filterMap fun r => addressOf r.data)), s)

def reverse (lookup : Lookup σ) (ip : IpAddress) (s : QueryIds × σ) :
    Except Error (List Name) × QueryIds × σ :=
  match Name.reverse ip with
  | .error fault => (.error (.malformed fault.message), s)
  | .ok name =>
    let (result, s) := lookup.records name .ptr s
    (result.map fun records => records.filterMap fun r => pointerOf r.data, s)

/--
The instances of a service. Pointers to other names than those of services are passed over.
-/
def browse (lookup : Lookup σ) (type : String) (s : QueryIds × σ) :
    Except Error (List Service) × QueryIds × σ :=
  match nameOfText type with
  | .error error => (.error error, s)
  | .ok name =>
    let (result, s) := lookup.records name .ptr s
    let services := fun (records : List Record) =>
      (records.filterMap fun r => (pointerOf r.data).bind fun n => (Service.ofName n).toOption)
    (result.map fun records => (services records).eraseDups, s)

end Lookup

end Zeroconf
