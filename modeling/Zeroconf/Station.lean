import Zeroconf.Link
import Zeroconf.Nameserver.Exchange
import Zeroconf.Querier
import Zeroconf.Transport.Connections

/-!
This module contains stations: queriers on a host, with the links, the nameservers and the processor
for streams that the settings ask for.
-/

namespace Zeroconf

structure Station.Listening where
  processor : Transport.Processor
  /-- The milliseconds for which the processor waits at once. -/
  pollTimeout : Nat
  connections : Transport.Connections := {}
  inbox : Inbox Sink

structure Station (τ : Type) where
  querier : Querier Link Nameserver
  listening : Option Station.Listening := none
  crew : Option (Work.Crew τ)

namespace Station

variable {τ : Type}

/--
The links that the settings ask for, without those that cannot be had.
-/
def links (host : Transport.Host) (settings : Settings) (now : Nat) : List Link :=
  let { querier, network, .. } := settings
  let link := fun (enabled : Bool) interface =>
    if enabled then (Link.create host interface querier network now).toOption else none
  (link querier.ipv4 (network.interfaceV4.getD (.v4 .unspecified))).toList ++
    (link querier.ipv6 (network.interfaceV6.getD (.v6 .unspecified))).toList

/--
The nameservers of the settings, or else those of the system.
-/
def nameservers (host : Transport.Host) (settings : Settings) (system : List SocketAddress) :
    List Nameserver :=
  let { nameservers := own, timeout, .. } := settings.querier
  (if own.isEmpty then system else own).map fun address => { address, timeout, host }

/--
Listen for streams at an address; messages that arrive go to the observers of the querier. If the
processor does not start, nobody listens.
-/
def listen (station : Station τ) (host : Transport.Host) (settings : Settings)
    (address : SocketAddress) (look : τ) (now : Nat) : Station τ :=
  match Transport.Processor.openListener host address now with
  | .error _ => station
  | .ok processor =>
    let started := processor.start settings.network look now station.crew
    match started.result with
    | .error _ => { station with crew := (started.processor.close started.crew).crew }
    | .ok () =>
      let inbox := { observers := { members := [.observers] } }
      let pollTimeout := settings.querier.responseWait
      { station with
        crew := started.crew
        listening := some { processor := started.processor, pollTimeout, inbox } }

/--
The station that the settings ask for. `system` are the nameservers of the system, and `look` is the
task of watching a processor.
-/
def create (host : Transport.Host) (settings : Settings) (system : List SocketAddress) (look : τ)
    (crew : Option (Work.Crew τ)) (now : Nat) : Except Error (Station τ) :=
  let { responseWait, timeout, .. } := settings.querier
  match Querier.assemble (links host settings now) (nameservers host settings system) responseWait
    timeout with
  | .error (error, _) => .error error
  | .ok querier =>
    let station := { querier, crew }
    match settings.network.unicastListen with
    | none => .ok station
    | some address => .ok (station.listen host settings address look now)

def handle (station : Station τ) (payload : List UInt8) : Outcome × Station τ :=
  match station.listening with
  | none => (.ok, station)
  | some listening =>
    let (outcome, inbox, reception) :=
      listening.inbox.deliver payload station.querier.reception
    (outcome,
      { station with
        querier := { station.querier with reception }
        listening := some { listening with inbox } })

def close (station : Station τ) : Station τ :=
  if station.querier.closed then
    station
  else
    let crew :=
      match station.listening with
      | some listening => (listening.processor.close station.crew).crew
      | none => station.crew
    { querier := station.querier.close, listening := none, crew }

end Station

end Zeroconf
