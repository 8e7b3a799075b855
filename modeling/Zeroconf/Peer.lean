import Zeroconf.Metric
import Zeroconf.Outcome
import Zeroconf.Reply

/-!
This module contains those who can be asked, responders and nameservers alike, by what they do, and
those to whom they report.
-/

namespace Zeroconf

/--
A listener with a name, who always wants the same to happen.
-/
structure Observer where
  name : String
  outcome : Outcome := .ok
  deriving DecidableEq, Repr

inductive Sink where
  | observer (listener : Observer)
  | inquiry (number : Nat)
  | waiter (number : Nat)
  | observers
  deriving DecidableEq, Repr

structure Reaction where
  /-- What is reported before the question is taken or refused. -/
  reports : List Report := []
  /-- What is reported later, with the milliseconds until then. -/
  later : List (Nat × Report) := []
  samples : List Sample := []
  /-- The number of the request, unless the question is refused. -/
  verdict : Except Error UInt16

class Peer (P : Type) where
  name : P → String
  /-- Ask at a time; replies go to the given sink. -/
  ask : P → Nat → Message → Sink → P × Reaction
  setTimeout : P → Nat → P
  close : P → P

structure Announcement where
  samples : List Sample := []
  verdict : Except Error Unit

class GroupPeer (P : Type) extends Peer P where
  /-- Send a message to the group, with the answers that it holds already or without them. -/
  announce : P → Message → Bool → P × Announcement
  /-- Report everything that is heard from the group to the given sink. -/
  register : P → Sink → P × Except Error Unit

end Zeroconf
