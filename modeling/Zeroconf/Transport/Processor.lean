import Zeroconf.Settings
import Zeroconf.Transport.Health
import Zeroconf.Transport.Host
import Zeroconf.Transport.Interface
import Zeroconf.Transport.Packet
import Zeroconf.Work.Crew

/-!
This module contains processors. A processor owns what packets arrive at, reads them, and hands them
to the workers for packets. If it is to be watched, the timetable holds a task that looks at it
again and again.
-/

namespace Zeroconf.Transport

inductive Processor.Reader where
  | idle
  | running
  | stopped
  deriving DecidableEq, Repr

/--
A processor. Times are in milliseconds.
-/
structure Processor where
  channel : Channel
  /-- Where packets arrive. -/
  address : SocketAddress
  reader : Processor.Reader := .idle
  closed : Bool := false
  /-- The number of the task that watches the processor. -/
  watch : Option Nat := none
  opened : Nat := 0
  /-- When the latest packet arrived. -/
  lastPacket : Option Nat := none
  deriving DecidableEq, Repr

namespace Processor

def guarded (error : String → Error) : Option Fault → Except Error Unit
  | some fault => .error (error fault.text)
  | none => .ok ()

def openGroup (host : Host) (interface group : IpAddress) (port : UInt16)
    (settings : NetworkSettings) (now : Nat) : Except Error Processor := do
  let isV6 ← checkFamilies interface group
  if !group.isMulticast then
    throw (.config s!"{group.text} is not a multicast address")
  let address := .of (if isV6 then .v6 .unspecified else .v4 .unspecified) port
  guarded (.bind address) (host.bind address)
  guarded (.join group) (host.join interface group)
  guarded (.join group) (host.hops settings.multicastTtl)
  return { channel := .multicast, address, opened := now }

def openListener (host : Host) (address : SocketAddress) (now : Nat) : Except Error Processor := do
  guarded (.bind address) (host.bind address)
  return { channel := .unicast, address, opened := now }

/--
The processor of a channel. The address is a group or the one to listen at; the interface must be
of the same family.
-/
def openOn (host : Host) (channel : Channel) (interface address : IpAddress) (port : UInt16)
    (settings : NetworkSettings) (now : Nat) : Except Error Processor := do
  match channel with
  | .multicast => openGroup host interface address port settings now
  | .unicast =>
    discard (checkFamilies interface address)
    openListener host (.of address port) now

variable {τ : Type}

/--
What an operation on a processor does to it and to those who do the work, who may be gone.
-/
structure Change (τ : Type) where
  result : Except Error Unit := .ok ()
  processor : Processor
  crew : Option (Work.Crew τ)
  samples : List Sample := []

/--
Have the processor watched by the task `look` if the settings say so.
-/
def startWatch (processor : Processor) (settings : NetworkSettings) (look : τ) (now : Nat)
    (crew : Option (Work.Crew τ)) : Change τ :=
  if settings.threadMonitor then
    match crew with
    | none => { result := .error (.closed "executors"), processor, crew }
    | some workers =>
      let interval := Health.checkInterval
      match workers.timetable.push now interval (some interval) look with
      | .error error => { result := .error error, processor, crew }
      | .ok (number, timetable) =>
        { processor := { processor with watch := some number }
          crew := some { workers with timetable } }
  else
    { processor, crew }

/--
Start to read, unless that has been done. A processor for a group cannot start any more when it is
closed; one that listens for streams starts, and stops at once.
-/
def start (processor : Processor) (settings : NetworkSettings) (look : τ) (now : Nat)
    (crew : Option (Work.Crew τ)) : Change τ :=
  let watched := fun reader => startWatch { processor with reader } settings look now crew
  match processor.channel, processor.reader, processor.closed with
  | .multicast, .running, _ => { processor, crew }
  | .multicast, _, true => { result := .error (.closed "multicast processor"), processor, crew }
  | .multicast, _, false => watched .running
  | .unicast, .idle, false => watched .running
  | .unicast, .idle, true => { watched .stopped with samples := [Sample.openConnections 0] }
  | .unicast, _, _ => { processor, crew }

/--
Close a processor, unless that has been done: nobody reads or watches it any more.
-/
def close (processor : Processor) (crew : Option (Work.Crew τ)) : Change τ :=
  if processor.closed then
    { processor, crew }
  else
    let crew :=
      match processor.watch with
      | some number =>
        crew.map fun workers => { workers with timetable := workers.timetable.cancel number }
      | none => crew
    match processor.reader with
    | .running =>
      let samples := if processor.channel == .unicast then [Sample.openConnections 0] else []
      let processor := { processor with closed := true, watch := none, reader := .stopped }
      { processor, crew, samples }
    | _ => { processor := { processor with closed := true, watch := none }, crew }

def isOperational (processor : Processor) (crew : Option (Work.Crew τ)) : Bool :=
  !processor.closed && processor.reader == .running && crew.any (·.network.isOperational)

/--
When something last arrived, or else when the processor was opened.
-/
def lastActivity (processor : Processor) : Nat := processor.lastPacket.getD processor.opened

/--
Look at a processor: one that is dead is closed.
-/
def look (processor : Processor) (now : Nat) (crew : Option (Work.Crew τ)) : Change τ :=
  let health := Health.check (processor.isOperational crew) (crew.any (·.network.isOperational))
    processor.lastActivity now
  if health == .dead then
    let change := processor.close crew
    { change with
      samples := Sample.processorClosed processor.channel "monitor" :: change.samples }
  else
    { processor, crew }

/--
Hand a packet that has arrived to the workers as a task. A packet that they do not take is dropped.
-/
def dispatch (processor : Processor) (handle : Packet → τ) (packet : Packet)
    (crew : Option (Work.Crew τ)) : Change τ :=
  let channel := processor.channel
  let processor := { processor with lastPacket := some packet.created }
  let received := Sample.packetReceived channel packet.payload.length
  match crew with
  | none =>
    { processor, crew, samples := received ++ [Sample.packetDropped channel "shutdown"] }
  | some workers =>
    let (verdict, network, samples) := workers.network.submit (handle packet)
    let dropped :=
      match verdict with
      | .ok () => []
      | .error _ => [Sample.packetDropped channel "rejected"]
    { processor
      crew := some { workers with network }
      samples := received ++ samples ++ dropped }

def dispatchAll (handle : Packet → τ) :
    List Packet → Processor → Option (Work.Crew τ) → Change τ
  | [], processor, crew => { processor, crew }
  | packet :: packets, processor, crew =>
    let first := processor.dispatch handle packet crew
    let change := dispatchAll handle packets first.processor first.crew
    { change with samples := first.samples ++ change.samples }

/--
Send through a processor that listens for streams. It can only receive; a closed one says nothing.
-/
def sendNothing (processor : Processor) : Except Error Unit :=
  if processor.closed then .ok () else .error (.receiveOnly processor.address)

end Processor

end Zeroconf.Transport
