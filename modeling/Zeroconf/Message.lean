import Zeroconf.Address
import Zeroconf.Name

/-!
This module contains DNS messages. Two records are the same if they agree in everything but the
time for which they may be kept, names up to ASCII case, those within their data as well;
`Record.identity` is that comparison as an equality.
-/

namespace Zeroconf

structure RecordType where
  code : UInt16
  deriving DecidableEq, Repr, Inhabited

namespace RecordType

def a : RecordType := ⟨1⟩
def ns : RecordType := ⟨2⟩
def cname : RecordType := ⟨5⟩
def ptr : RecordType := ⟨12⟩
def txt : RecordType := ⟨16⟩
def aaaa : RecordType := ⟨28⟩
def srv : RecordType := ⟨33⟩
/-- A record that extends the header. -/
def opt : RecordType := ⟨41⟩
/-- A question for records of every type. -/
def any : RecordType := ⟨255⟩

end RecordType

/--
Data in a form of their own: names, each with the bytes in front of it, and the bytes behind the
last one.
-/
structure Payload where
  names : List (List UInt8 × Name) := []
  rest : List UInt8
  deriving DecidableEq, Repr, Inhabited

namespace Payload

def ofBytes (bytes : List UInt8) : Payload := { rest := bytes }

def bytes (payload : Payload) : List UInt8 :=
  payload.names.flatMap (fun (front, name) => front ++ Name.wire name.labels) ++ payload.rest

instance : Coe (List UInt8) Payload := ⟨ofBytes⟩

instance : Coe Payload (List UInt8) := ⟨bytes⟩

def fold (payload : Payload) : Payload :=
  { payload with names := payload.names.map fun (front, name) => (front, name.fold) }

end Payload

inductive RecordData where
  | a (ip : Ipv4)
  | aaaa (ip : Ipv6)
  | ptr (target : Name)
  | cname (target : Name)
  | ns (target : Name)
  | txt (strings : List (List UInt8))
  | srv (priority weight port : UInt16) (target : Name)
  /-- Data of any other type. Only the names in them are known to the library. -/
  | raw (payload : Payload)
  /-- No data at all. -/
  | absent
  deriving DecidableEq, Repr, Inhabited

/--
The data with all names in lower case.
-/
def RecordData.fold : RecordData → RecordData
  | ptr target => ptr target.fold
  | cname target => cname target.fold
  | ns target => ns target.fold
  | srv priority weight port target => srv priority weight port target.fold
  | raw payload => raw payload.fold
  | data => data

/--
The class of Internet records. The topmost bit of a class tells multicast listeners to forget other
records of the same owner and type.
-/
def internetClass : UInt16 := 1

structure Record where
  name : Name
  type : RecordType
  cls : UInt16 := internetClass
  /-- For how many seconds the record may be kept. -/
  ttl : UInt32
  data : RecordData
  deriving DecidableEq, Repr, Inhabited

/--
What two records have in common if they are the same.
-/
structure Record.Identity where
  name : Name
  type : RecordType
  cls : UInt16
  data : RecordData
  deriving DecidableEq, Repr

def Record.identity (record : Record) : Record.Identity :=
  ⟨record.name.fold, record.type, record.cls, record.data.fold⟩

def Record.same (a b : Record) : Bool := a.identity == b.identity

theorem Record.same_iff {a b : Record} : a.same b = true ↔ a.identity = b.identity := by
  simp [same]

structure Question where
  name : Name
  type : RecordType
  cls : UInt16 := internetClass
  deriving DecidableEq, Repr, Inhabited

structure Edns where
  /-- The greatest message that the sender can receive. -/
  payload : UInt16
  version : UInt8
  deriving DecidableEq, Repr, Inhabited

/-- Every party can receive messages of this size. -/
def Edns.leastPayload : UInt16 := 512

abbrev ResponseCode := UInt16

def ResponseCode.noError : ResponseCode := 0

def ResponseCode.nxDomain : ResponseCode := 3

structure Message where
  id : UInt16 := 0
  isResponse : Bool := false
  opcode : UInt8 := 0
  authoritative : Bool := false
  truncated : Bool := false
  recursionDesired : Bool := false
  recursionAvailable : Bool := false
  authenticData : Bool := false
  checkingDisabled : Bool := false
  code : ResponseCode := ResponseCode.noError
  questions : List Question := []
  answers : List Record := []
  authorities : List Record := []
  additionals : List Record := []
  edns : Option Edns := none
  deriving DecidableEq, Repr, Inhabited

def Message.query (id : UInt16) (name : Name) (type : RecordType) : Message :=
  { id, recursionDesired := true, questions := [⟨name, type, internetClass⟩] }

end Zeroconf
