import Zeroconf.Error
import Zeroconf.Message.Reader

/-!
This module contains packets: what arrives at once from one sender, either a datagram or the content
of a frame.
-/

namespace Zeroconf

structure Packet where
  source : SocketAddress
  payload : List UInt8
  /-- The packets are numbered in the order of their arrival. -/
  sequence : UInt64
  /-- The time of arrival in milliseconds. -/
  created : Nat
  deriving DecidableEq, Repr

namespace Packet

/--
The packet that arrives after `arrived` others, and the number of packets then.
-/
def receive (source : SocketAddress) (payload : List UInt8) (now : Nat) (arrived : UInt64) :
    Packet × UInt64 :=
  (⟨source, payload, arrived, now⟩, arrived + 1)

def receiveAll (now : Nat) (arrived : UInt64) :
    List (SocketAddress × List UInt8) → List Packet × UInt64
  | [] => ([], arrived)
  | (source, payload) :: contents =>
    let (packet, arrived) := receive source payload now arrived
    let (packets, arrived) := receiveAll now arrived contents
    (packet :: packets, arrived)

def decode (packet : Packet) : Except Error Message :=
  (Message.decode packet.payload).mapError fun fault => .malformed fault.message

end Packet

end Zeroconf
