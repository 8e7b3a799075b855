import Zeroconf.Inbox
import Zeroconf.Message.Writer
import Zeroconf.Peer
import Zeroconf.Reception
import Zeroconf.Transport.Processor

/-!
This module contains links: responders that are reached through a group on the local link. What
comes back from the group goes to everybody who has asked it lately and to those who observe it.
-/

namespace Zeroconf

def Inbox.deliver (inbox : Inbox Sink) (payload : List UInt8) (reception : Reception) :
    Outcome × Inbox Sink × Reception :=
  let call := fun report sink (s : Inbox Sink × Reception) =>
    let (outcome, reception) := s.2.deliver sink report
    (outcome, s.1, reception)
  Inbox.receive call reception.now payload (inbox, reception)

/--
A group on the local link as it is seen from a host. Times are in milliseconds.
-/
structure Link where
  interface : IpAddress
  group : SocketAddress
  timeout : Nat
  host : Transport.Host
  closed : Bool := false
  /-- Whether messages are still sent to the group. -/
  sending : Bool := true
  inbox : Inbox Sink := {}

namespace Link

def groupV4 : Ipv4 := ⟨224, 0, 0, 251⟩

def groupV6 : Ipv6 := ⟨0xFF02, 0, 0, 0, 0, 0, 0, 0xFB⟩

def groupOf : IpAddress → IpAddress
  | .v4 _ => .v4 groupV4
  | .v6 _ => .v6 groupV6

def create (host : Transport.Host) (interface : IpAddress) (querier : QuerierSettings)
    (network : NetworkSettings) (now : Nat) : Except Error Link := do
  let group := groupOf interface
  discard (Transport.Processor.openGroup host interface group querier.multicastPort network now)
  return { interface, group := .of group querier.multicastPort, timeout := querier.timeout, host }

def ensureOpen (link : Link) : Except Error Unit :=
  if link.closed then .error (.closed "multicast querier") else .ok ()

/--
Send bytes to the group. A link that sends no longer says nothing; one from which there is no way
to the group stops sending.
-/
def transmit (link : Link) (bytes : List UInt8) : Except Error Unit × Link × List Sample :=
  if !link.sending then
    (.ok (), link, [])
  else
    match link.host.transmit link.group bytes with
    | none => (.ok (), link, Sample.packetSent .multicast bytes.length)
    | some fault =>
      let samples := [Sample.sendError .multicast]
      let error := Error.send link.group fault.text
      if fault.isUnreachable then
        (.error error, { link with sending := false },
          samples ++ [Sample.processorClosed .multicast "unreachable"])
      else
        (.error error, link, samples)

def encode (message : Message) : Except Error (List UInt8) :=
  message.encode.mapError fun fault => .malformed fault.message

/--
Ask the group. The one who asks waits for responses from before the sending on, until the timeout;
if the sending fails he waits for none any more.
-/
def ask (link : Link) (now : Nat) (query : Message) (sink : Sink) : Link × Reaction :=
  match link.ensureOpen *> encode query with
  | .error error => (link, { verdict := .error error })
  | .ok bytes =>
    let link := { link with inbox := link.inbox.addPending query.id sink now link.timeout }
    match link.transmit bytes with
    | (.ok (), link, samples) => (link, { samples, verdict := .ok query.id })
    | (.error error, link, samples) =>
      let link := { link with inbox := link.inbox.removePending sink }
      (link, { samples, verdict := .error error })

/--
Send a message to the group, with the answers that it holds already or without them.
-/
def announce (link : Link) (message : Message) (known : Bool) : Link × Announcement :=
  let message := if known then message else { message with answers := [] }
  match link.ensureOpen *> encode message with
  | .error error => (link, { verdict := .error error })
  | .ok bytes =>
    let (verdict, link, samples) := link.transmit bytes
    (link, { samples, verdict })

def register (link : Link) (sink : Sink) : Link × Except Error Unit :=
  match link.inbox.observers.register sink with
  | .ok (_, observers) => ({ link with inbox := { link.inbox with observers } }, .ok ())
  | .error error => (link, .error error)

/--
Close the link, unless that has been done: it sends nothing, and nobody waits or observes.
-/
def close (link : Link) : Link :=
  if link.closed then
    link
  else
    { link with closed := true, sending := false, inbox := link.inbox.close }

def receive (link : Link) (payload : List UInt8) (reception : Reception) :
    Outcome × Link × Reception :=
  let (outcome, inbox, reception) := link.inbox.deliver payload reception
  (outcome, { link with inbox }, reception)

end Link

instance : GroupPeer Link where
  name link := link.interface.text
  ask := Link.ask
  setTimeout link timeout := { link with timeout }
  close := Link.close
  announce := Link.announce
  register := Link.register

end Zeroconf
