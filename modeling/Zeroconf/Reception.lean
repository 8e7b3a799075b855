import Zeroconf.Fanout
import Zeroconf.Inquiry
import Zeroconf.Peer
import Zeroconf.Waiter

/-!
This module contains the place where replies are received: the inquiries and waiters to which they
belong, the observers, the replies that are still to come, and the journal of all that happened.
Time passes only here.
-/

namespace Zeroconf

/--
An inquiry and the listener, if any, who is told of every reply that it keeps.
-/
structure Reception.Case where
  inquiry : Inquiry
  caller : Option Observer := none
  deriving DecidableEq, Repr

structure Reception.Due where
  time : Nat
  sink : Sink
  report : Report
  deriving DecidableEq, Repr

inductive Reception.Entry where
  /-- A listener was told of a reply. -/
  | heard (listener : String) (report : Report)
  /-- A report that somebody made before taking a question came back with an outcome. -/
  | delivered (peer : String) (outcome : Outcome)
  | asked (peer : String) (query : Message)
  | announced (peer : String) (message : Message) (known : Bool)
  | closed (peer : String)
  deriving DecidableEq, Repr

/--
Where replies are received. Times are in milliseconds.
-/
structure Reception where
  now : Nat := 0
  observers : Fanout Observer := {}
  cases : List Reception.Case := []
  waiters : List Waiter := []
  /-- What is still to come, the next reply in front. -/
  upcoming : List Reception.Due := []
  /-- What has happened, the latest entry last. -/
  journal : List Reception.Entry := []
  samples : List Sample := []
  deriving Repr

namespace Reception

def note (reception : Reception) (entry : Entry) : Reception :=
  { reception with journal := reception.journal ++ [entry] }

def measure (reception : Reception) (samples : List Sample) : Reception :=
  { reception with samples := reception.samples ++ samples }

def hear (report : Report) (listener : Observer) (reception : Reception) : Outcome × Reception :=
  (listener.outcome, reception.note (.heard listener.name report))

def step (reception : Reception) (number : Nat) (event : Inquiry.Event) : Reception :=
  { reception with
    cases := reception.cases.modify number fun case =>
      { case with inquiry := case.inquiry.step event } }

def deliverToInquiry (number : Nat) (report : Report) (reception : Reception) :
    Outcome × Reception :=
  match reception.cases[number]? with
  | none => (.ok, reception)
  | some case =>
    if case.inquiry.keeps report then
      let reception := reception.step number (.reported report)
      match case.caller with
      | some listener => reception.hear report listener
      | none => (.ok, reception)
    else
      (.ok, reception)

def deliver (sink : Sink) (report : Report) (reception : Reception) : Outcome × Reception :=
  match sink with
  | .observer listener => reception.hear report listener
  | .observers => reception.observers.audience.hear (hear report) reception
  | .inquiry number => reception.deliverToInquiry number report
  | .waiter number =>
    (.ok, { reception with waiters := reception.waiters.modify number (·.receive report) })

/--
Put a reply behind all that come no later.
-/
def insertDue (due : Due) : List Due → List Due
  | [] => [due]
  | first :: others =>
    if due.time < first.time then due :: first :: others else first :: insertDue due others

def schedule (sink : Sink) (reception : Reception) (later : Nat × Report) : Reception :=
  let due := ⟨reception.now + later.1, sink, later.2⟩
  { reception with upcoming := insertDue due reception.upcoming }

/--
Receive the reports that somebody makes before taking a question, and schedule the others.
-/
def receive (peer : String) (sink : Sink) (reaction : Reaction) (reception : Reception) :
    Reception :=
  let report := fun (reception : Reception) report =>
    let (outcome, reception) := reception.deliver sink report
    reception.note (.delivered peer outcome)
  let reception := (reaction.reports.foldl report reception).measure reaction.samples
  reaction.later.foldl (schedule sink) reception

def receiveDue (due : Due) (reception : Reception) : Reception :=
  (deliver due.sink due.report { reception with now := max reception.now due.time }).2

/--
Let the replies come in that are due before `limit`, until `done`.
-/
def advance (limit : Nat) (done : Reception → Bool) (reception : Reception) : Reception :=
  go reception.upcoming reception
where
  go (upcoming : List Due) (reception : Reception) : Reception :=
    if done reception then
      { reception with upcoming }
    else
      match upcoming with
      | [] => { reception with upcoming := [], now := max reception.now limit }
      | due :: others =>
        if due.time < limit then
          go others (receiveDue due reception)
        else
          { reception with upcoming, now := max reception.now limit }

def settle (reception : Reception) : Reception :=
  reception.upcoming.foldl (fun reception due => receiveDue due reception)
    { reception with upcoming := [] }

def openCase (query : Message) (caller : Option Observer) (responseWait timeout : Nat)
    (reception : Reception) : Nat × Reception :=
  let case := ⟨.create query responseWait timeout reception.now, caller⟩
  (reception.cases.length, { reception with cases := reception.cases ++ [case] })

/--
What somebody sees who waits until `deadline` for the inquiry with the given number and looks now.
-/
def look (number deadline : Nat) (reception : Reception) : Option Bool :=
  reception.cases[number]?.bind (·.inquiry.look deadline reception.now)

def wait (number : Nat) (reception : Reception) : Bool × Reception :=
  match reception.cases[number]? with
  | none => (false, reception)
  | some case =>
    let look := look number case.inquiry.deadline
    let reception := reception.advance case.inquiry.deadline (look · |>.isSome)
    ((look reception).getD false, reception)

def answer (number : Nat) (reception : Reception) : Except Error Message × Reception :=
  let (complete, reception) := reception.wait number
  match reception.cases[number]? with
  | none => (.error .timeout, reception)
  | some { inquiry, .. } =>
    (inquiry.answer,
      reception.measure (Sample.resolution (inquiry.rating complete).label inquiry.sent))

end Reception

end Zeroconf
