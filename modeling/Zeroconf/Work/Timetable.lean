import Zeroconf.Error

/-!
This module contains tasks that are to be carried out at set times, once or again and again. Tasks
are handed over in the order of their times, and of two at the same time in the order in which they
were put down. The clock is an argument of every operation.
-/

namespace Zeroconf.Work

/--
A task and when it is due next. Times are in milliseconds.
-/
structure Timetable.Entry (τ : Type) where
  due : Nat
  /-- The number that the task got when it was put down; it identifies the task. -/
  sequence : Nat
  /-- The time from one run to the next, if there is more than one. -/
  period : Option Nat
  task : τ
  deriving DecidableEq, Repr

/--
The tasks that are still to be carried out, the next one in front.
-/
structure Timetable (τ : Type) where
  entries : List (Timetable.Entry τ) := []
  nextSequence : Nat := 0
  /-- The numbers of the tasks that were cancelled. -/
  cancelled : List Nat := []
  closed : Bool := false
  deriving Repr

namespace Timetable

variable {τ : Type}

def Entry.before (a b : Entry τ) : Bool :=
  a.due < b.due || (a.due == b.due && a.sequence < b.sequence)

def insert (entry : Entry τ) : List (Entry τ) → List (Entry τ)
  | [] => [entry]
  | first :: others =>
    if entry.before first then entry :: first :: others else first :: insert entry others

/--
Put down a task that is due after `delay` for the first time, and return its number.
-/
def push (timetable : Timetable τ) (now delay : Nat) (period : Option Nat) (task : τ) :
    Except Error (Nat × Timetable τ) :=
  if timetable.closed then
    .error (.rejected "scheduled")
  else
    let sequence := timetable.nextSequence
    let entries := insert ⟨now + delay, sequence, period, task⟩ timetable.entries
    .ok (sequence, { timetable with entries, nextSequence := sequence + 1 })

/--
Cancel the task with the given number. Its entry stays until it is due.
-/
def cancel (timetable : Timetable τ) (sequence : Nat) : Timetable τ :=
  { timetable with cancelled := timetable.cancelled ++ [sequence] }

def isCancelled (timetable : Timetable τ) (sequence : Nat) : Bool :=
  timetable.cancelled.contains sequence

/--
The next entry of a task that is carried out again. Runs that were missed are left out.
-/
def Entry.again (entry : Entry τ) (now period : Nat) : Entry τ :=
  let due := entry.due + period
  { entry with due := if due < now then now + period else due }

/--
Look at the first entry. If it is due, it is taken off, and it is handed over unless it was
cancelled.
-/
def tick (timetable : Timetable τ) (now : Nat) : Option (Entry τ) × Timetable τ :=
  match timetable.entries with
  | [] => (none, timetable)
  | entry :: others =>
    if entry.due > now then
      (none, timetable)
    else if timetable.isCancelled entry.sequence then
      (none, { timetable with entries := others })
    else
      let entries :=
        match entry.period with
        | some period => insert (entry.again now period) others
        | none => others
      (some entry, { timetable with entries })

/--
Whether a worker carries out the task of an entry that was handed over. It does nothing if the task
has been cancelled in the meantime.
-/
def carriesOut (timetable : Timetable τ) (entry : Entry τ) : Bool :=
  !timetable.isCancelled entry.sequence

def shutdown (timetable : Timetable τ) : Timetable τ :=
  { timetable with entries := [], closed := true }

/--
Let time pass until `limit`, or until enough tasks have been carried out, and return the time then
and the entries of these tasks in the order in which they were. A worker takes an entry as soon as
it is handed over. `fuel` bounds the number of entries that are looked at.
-/
def advance (fuel : Nat) (limit : Option Nat) (enough : List (Entry τ) → Bool) (now : Nat)
    (timetable : Timetable τ) : Nat × List (Entry τ) × Timetable τ :=
  go fuel now [] timetable
where
  go (fuel now : Nat) (done : List (Entry τ)) (timetable : Timetable τ) :
      Nat × List (Entry τ) × Timetable τ :=
    match fuel with
    | 0 => (now, done, timetable)
    | fuel + 1 =>
      if enough done then
        (now, done, timetable)
      else
        match timetable.entries with
        | [] => (max now (limit.getD now), done, timetable)
        | entry :: _ =>
          if limit.any (entry.due > ·) then
            (max now (limit.getD now), done, timetable)
          else
            let now := max now entry.due
            let (handed, timetable) := timetable.tick now
            go fuel now (done ++ (handed.filter timetable.carriesOut).toList) timetable

end Timetable

end Zeroconf.Work
