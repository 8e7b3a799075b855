import Zeroconf.Error

/-!
This module contains what a host lets its programs do with the network: which faults they meet when
they bind, join and send, and what comes back for what they have sent.
-/

namespace Zeroconf.Transport

structure Fault where
  /-- The number that the system has for the fault, if it has one. -/
  code : Option Nat := none
  text : String
  deriving DecidableEq, Repr

namespace Fault

def noDevice : Fault := ⟨some 19, "No such device (os error 19)"⟩
def invalidArgument : Fault := ⟨some 22, "Invalid argument (os error 22)"⟩
def messageTooLong : Fault := ⟨some 90, "Message too long (os error 90)"⟩
def addressUnavailable : Fault := ⟨some 99, "Cannot assign requested address (os error 99)"⟩
def networkUnreachable : Fault := ⟨some 101, "Network is unreachable (os error 101)"⟩
def connectionRefused : Fault := ⟨some 111, "Connection refused (os error 111)"⟩

/-- A stream has ended although more was expected. -/
def unexpectedEnd : Fault := ⟨none, "failed to fill whole buffer"⟩

/--
Whether there is no way to the destination: network or host are unreachable.
-/
def isUnreachable (fault : Fault) : Bool := fault.code == some 101 || fault.code == some 113

def isTimeout (fault : Fault) : Bool := fault.code == some 11 || fault.code == some 110

/--
The failure that follows from a fault while something is awaited.
-/
def awaiting (fault : Fault) : Error := if fault.isTimeout then .timeout else .io fault.text

end Fault

structure Arrival where
  /-- The milliseconds since the query was sent. -/
  time : Nat
  content : Except Fault (SocketAddress × List UInt8)

inductive Conversation where
  | refused (fault : Fault)
  /-- The stream takes no bytes. -/
  | unsent (fault : Fault)
  /-- All bytes that come back, and the fault that whoever awaits another one meets. -/
  | reply (bytes : List UInt8) (ending : Fault)
  deriving DecidableEq, Repr

structure Traffic where
  arrivals : List Arrival := []
  /-- What comes of asking once more over a stream, by writing these bytes. -/
  conversation : List UInt8 → Conversation := fun _ => .refused .connectionRefused
  /-- The milliseconds that the stream takes. -/
  conversationTime : Nat := 0

/-- Most hosts let packets take no more hops. -/
def maxHops : UInt32 := 255

/--
What a host makes of the operations of its programs: the fault, if any, that each one meets.
-/
structure Host where
  bind : SocketAddress → Option Fault := fun _ => none
  /-- Joining a group, which is the second address, on the interface with the first address. -/
  join : IpAddress → IpAddress → Option Fault := fun _ _ => none
  /-- Letting the packets to a group take a number of hops. -/
  hops : UInt32 → Option Fault := fun hops => if hops > maxHops then some .invalidArgument else none
  send : SocketAddress → List UInt8 → Option Fault := fun _ _ => none
  /-- What comes back when bytes are sent to an address. -/
  traffic : SocketAddress → List UInt8 → Traffic := fun _ _ => {}

/-- The size of a datagram with all its headers is less than this. -/
def datagramBound : Nat := 65536

def datagramHeader : Nat := 8

/-- What the header of an IPv4 packet takes; it counts as part of the datagram. -/
def packetHeaderV4 : Nat := 20

def maxDatagram (destination : IpAddress) : Nat :=
  datagramBound - 1 - datagramHeader - if destination.isV6 then 0 else packetHeaderV4

namespace Host

def transmit (host : Host) (destination : SocketAddress) (bytes : List UInt8) : Option Fault :=
  if bytes.length > maxDatagram destination.ip then
    some .messageTooLong
  else
    host.send destination bytes

/--
Whether an IPv6 address is the wildcard or stands for an IPv4 address.
-/
def isGeneric (ip : Ipv6) : Bool := ip == .unspecified || ip.mapped?.isSome

/--
A host that is connected to nothing. Its programs can bind addresses, but they join no group and
nothing that they send gets anywhere.
-/
def isolated : Host where
  bind
    | .v4 _ _ => none
    | .v6 ip _ _ => if isGeneric ip then none else some .addressUnavailable
  join _ _ := some .noDevice
  send _ _ := some .networkUnreachable
  traffic _ _ := { conversation := fun _ => .refused .networkUnreachable }

end Host

end Zeroconf.Transport
