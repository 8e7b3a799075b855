import Zeroconf.Outcome

/-!
This module contains lists of listeners and the calls that go out to them. A call reaches the
listeners that are on the list when it begins, in the order of their registration, up to the first
one that stops it or fails. A list that is closed is empty and stays empty.
-/

namespace Zeroconf

/--
The listeners who are told of something, the one registered first in front.
-/
structure Fanout (α : Type) where
  members : List α := []
  closed : Bool := false
  deriving Repr

namespace Fanout

variable {α σ : Type}

/--
Put `listener` on the list, unless it is there already, and return the entry for it.
-/
def register [BEq α] (fanout : Fanout α) (listener : α) : Except Error (α × Fanout α) :=
  if fanout.closed then
    .error (.closed "listener registry")
  else
    match fanout.members.find? (· == listener) with
    | some present => .ok (present, fanout)
    | none => .ok (listener, { fanout with members := fanout.members ++ [listener] })

/--
Take `listener` off the list and return its entry, if it was there.
-/
def unregister [BEq α] (fanout : Fanout α) (listener : α) : Option α × Fanout α :=
  (fanout.members.find? (· == listener),
    { fanout with members := fanout.members.erase listener })

def close (_ : Fanout α) : Fanout α := ⟨[], true⟩

def callAll (call : α → σ → Outcome × σ) (listeners : List α) (s : σ) : Except Error Unit × σ :=
  match listeners with
  | [] => (.ok (), s)
  | listener :: others =>
    match call listener s with
    | (.ok, s) => callAll call others s
    | (.stop, s) => (.ok (), s)
    | (.fail reason, s) => (.error (.listener reason), s)

/--
Call the listeners that are on the list now. The calls may change the list within `σ`, but not the
course of this dispatch.
-/
def dispatch (fanout : Fanout α) (call : α → σ → Outcome × σ) (s : σ) : Except Error Unit × σ :=
  callAll call fanout.members s

def describe (name : String) (fanout : Fanout α) : String :=
  s!"ListenerRegistry \x7b name: \"{name}\", listeners: {fanout.members.length} \x7d"

/--
A change that a listener makes to the list, possibly while it is called.
-/
inductive Change (α : Type) where
  | register (listener : α)
  | unregister (listener : α)
  | close
  deriving DecidableEq, Repr

/--
Make a change. Registration on a closed list changes nothing.
-/
def apply [BEq α] (fanout : Fanout α) : Change α → Fanout α
  | .register listener =>
    match fanout.register listener with
    | .ok (_, changed) => changed
    | .error _ => fanout
  | .unregister listener => (fanout.unregister listener).2
  | .close => fanout.close

/--
How a listener behaves when it is called: the changes that it makes, and what it returns then.
-/
structure Behaviour (α : Type) where
  changes : List (Change α) := []
  outcome : Outcome := .ok
  deriving Repr

/--
A list whose listeners may change it, with the listeners called so far.
-/
structure Called (α : Type) where
  fanout : Fanout α
  calls : List α := []
  deriving Repr

def Called.call [BEq α] (behaviour : α → Behaviour α) (listener : α) (s : Called α) :
    Outcome × Called α :=
  let { changes, outcome } := behaviour listener
  (outcome, ⟨changes.foldl apply s.fanout, s.calls ++ [listener]⟩)

def dispatchChanging [BEq α] (behaviour : α → Behaviour α) (fanout : Fanout α) :
    Except Error Unit × Called α :=
  fanout.dispatch (Called.call behaviour) ⟨fanout, []⟩

end Fanout

/--
Those who hear a call: a single listener, or a list of listeners that is called as if it were one.
-/
inductive Audience (α : Type) where
  | one (listener : α)
  | many (members : List (Audience α))

namespace Audience

variable {α σ : Type}

mutual

/--
Call an audience. A list of listeners fails with the wording of the failure inside it.
-/
def hear (call : α → σ → Outcome × σ) (audience : Audience α) (s : σ) : Outcome × σ :=
  match audience with
  | one listener => call listener s
  | many members =>
    let (result, s) := hearAll call members s
    (.ofResult result, s)

def hearAll (call : α → σ → Outcome × σ) (members : List (Audience α)) (s : σ) :
    Except Error Unit × σ :=
  match members with
  | [] => (.ok (), s)
  | member :: others =>
    match hear call member s with
    | (.ok, s) => hearAll call others s
    | (.stop, s) => (.ok (), s)
    | (.fail reason, s) => (.error (.listener reason), s)

end

theorem hearAll_eq_callAll (call : α → σ → Outcome × σ) (members : List (Audience α)) (s : σ) :
    hearAll call members s = Fanout.callAll (hear call) members s := by
  induction members generalizing s with
  | nil => simp [hearAll, Fanout.callAll]
  | cons member others ih =>
    rw [hearAll, Fanout.callAll]
    split <;> simp_all

end Audience

def Fanout.audience {α : Type} (fanout : Fanout α) : Audience α :=
  .many (fanout.members.map .one)

end Zeroconf
