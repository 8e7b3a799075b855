import Zeroconf.Address
import Zeroconf.Metric
import Zeroconf.Transport.Frame

/-!
This module contains the reception of frames over several streams at once. Every stream has a buffer
of its own for what has arrived of its next frame.
-/

namespace Zeroconf.Transport

structure Connection where
  /-- The number that the stream got when it was accepted; it identifies the stream. -/
  number : Nat
  source : SocketAddress
  /-- What has arrived and is no complete frame yet. -/
  buffer : List UInt8 := []
  deriving DecidableEq, Repr

structure Connections where
  live : List Connection := []
  nextNumber : Nat := 0
  deriving DecidableEq, Repr

namespace Connections

structure Yield where
  connections : Connections
  /-- The content of each frame that is complete now, with its sender. -/
  received : List (SocketAddress × List UInt8) := []
  samples : List Sample := []

def gauge (connections : Connections) : Sample :=
  Sample.openConnections connections.live.length

def accept (connections : Connections) (source : SocketAddress) : Yield :=
  let { live, nextNumber } := connections
  let connections := ⟨live ++ [{ number := nextNumber, source }], nextNumber + 1⟩
  { connections, samples := [connections.gauge] }

/--
Somebody opens a stream that cannot be watched. It is given up at once, and its number is used up.
-/
def turnAway (connections : Connections) : Connections :=
  { connections with nextNumber := connections.nextNumber + 1 }

/--
The measurements at the end of a stream with a rest in its buffer. A frame that is incomplete then
stays so.
-/
def endSamples (buffer : List UInt8) : List Sample :=
  if buffer.isEmpty then [] else [Sample.packetDropped .unicast "truncated"]

def read (connections : Connections) (number : Nat) (bytes : List UInt8) (ended : Bool) : Yield :=
  match connections.live.find? (·.number == number) with
  | none => { connections }
  | some connection =>
    let (frames, buffer) := Frame.drain (connection.buffer ++ bytes)
    let received := frames.map fun payload => (connection.source, payload)
    if ended then
      let live := connections.live.filter (·.number != number)
      let connections := { connections with live }
      { connections, received, samples := endSamples buffer ++ [connections.gauge] }
    else
      let keep := fun (c : Connection) => if c.number == number then { c with buffer } else c
      { connections := { connections with live := connections.live.map keep }, received }

inductive Attempt where
  /-- There is at least one byte. -/
  | chunk (first : UInt8) (others : List UInt8)
  /-- There is nothing to be read yet. -/
  | nothing
  | interrupted
  /-- The stream is at its end. -/
  | ended
  /-- The stream is broken, which ends it as well. -/
  | failed
  deriving DecidableEq, Repr

/--
Read from a stream as long as there is something, and tell what is in its buffer then and whether
the stream is over.
-/
def gather (buffer : List UInt8) : List Attempt → List UInt8 × Bool
  | .chunk first others :: attempts => gather (buffer ++ first :: others) attempts
  | .interrupted :: attempts => gather buffer attempts
  | .ended :: _ => (buffer, true)
  | .failed :: _ => (buffer, true)
  | .nothing :: _ => (buffer, false)
  | [] => (buffer, false)

def poll (connections : Connections) (number : Nat) (attempts : List Attempt) : Yield :=
  let (bytes, ended) := gather [] attempts
  connections.read number bytes ended

def closeAll (connections : Connections) : Yield :=
  let connections := { connections with live := [] }
  { connections, samples := [connections.gauge] }

end Connections

end Zeroconf.Transport
