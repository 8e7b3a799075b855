import Zeroconf.Fanout
import Zeroconf.Message.Reader
import Zeroconf.Reply

/-!
This module contains the routing of responses that arrive from a group of responders. Nothing in
such a response tells for whom it is meant, so that everybody hears of it who has sent a query
lately, and after them everybody who observes the group.
-/

namespace Zeroconf

/--
A listener who hears of all responses that arrive before `expires`, for a request of his.
-/
structure Inbox.Pending (α : Type) where
  id : UInt16
  listener : α
  expires : Nat
  deriving DecidableEq, Repr

/--
Those who wait for responses, the one who has waited longest in front, and those who observe.
-/
structure Inbox (α : Type) where
  pending : List (Inbox.Pending α) := []
  observers : Fanout α := {}
  deriving Repr

namespace Inbox

variable {α σ : Type}

def addPending (inbox : Inbox α) (id : UInt16) (listener : α) (now lifetime : Nat) : Inbox α :=
  { inbox with pending := inbox.pending ++ [⟨id, listener, now + lifetime⟩] }

/--
Let `listener` wait no longer, for whichever request.
-/
def removePending [BEq α] (inbox : Inbox α) (listener : α) : Inbox α :=
  { inbox with pending := inbox.pending.filter (·.listener != listener) }

def expire (inbox : Inbox α) (now : Nat) : Inbox α :=
  { inbox with pending := inbox.pending.filter (·.expires > now) }

def close (inbox : Inbox α) : Inbox α := ⟨[], inbox.observers.close⟩

/--
Tell everybody who waits now of a response, whatever they answer, and then the observers. The calls
may change the inbox within the state; whoever is called is on the list of those waiting when the
routing begins, or on the list of observers when those waiting have been told.
-/
def route (call : α → Inbox α × σ → Outcome × Inbox α × σ) (now : Nat) (s : Inbox α × σ) :
    Outcome × Inbox α × σ :=
  let inbox := s.1.expire now
  let s := inbox.pending.foldl (fun s waiting => (call waiting.listener s).2) (inbox, s.2)
  let (result, s) := s.1.observers.dispatch call s
  (.ofResult result, s)

def response? (payload : List UInt8) : Option Message :=
  match Message.decode payload with
  | .ok message => if message.isResponse then some message else none
  | .error _ => none

def receive (call : Report → α → Inbox α × σ → Outcome × Inbox α × σ) (now : Nat)
    (payload : List UInt8) (s : Inbox α × σ) : Outcome × Inbox α × σ :=
  match response? payload with
  | some response => route (call ⟨response.id, .message response⟩) now s
  | none => (.ok, s)

end Inbox

end Zeroconf
