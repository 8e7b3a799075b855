import Mathlib.Data.List.Perm.Basic
import Zeroconf.Proofs.Inquiry.Asking
import Zeroconf.Proofs.Reception

/-!
This module contains the relation between a place where replies are received and the course of one
of its inquiries. Whatever is done there takes the inquiry along its course by acts that are known,
and its caller, if there is one, is told of exactly what is kept in these acts.
-/

namespace Zeroconf

open Inquiry

namespace Reception

/--
Whether the inquiry with the given number is as far as a course has come.
-/
structure Holds (reception : Reception) (number : Nat) (caller : Option Observer)
    (course : Course) : Prop where
  case : reception.cases[number]? = some ⟨course.inquiry, caller⟩
  now : reception.now = course.now

def calls (caller : Option Observer) (reports : List Report) : List (String × Report) :=
  caller.toList.flatMap fun listener => reports.map (listener.name, ·)

@[simp]
theorem calls_nil (caller : Option Observer) : calls caller [] = [] := by
  cases caller <;> rfl

theorem calls_append (caller : Option Observer) (reports others : List Report) :
    calls caller (reports ++ others) = calls caller reports ++ calls caller others := by
  cases caller with
  | none => rfl
  | some listener => simp [calls]

/--
Whether acts of the inquiry with the given number lead from one reception to another. They are all
that the caller of the inquiry is told of in the meantime, and `dues` is what is scheduled.
-/
structure Performs (plan : Plan) (number : Nat) (caller : Option Observer) (course : Course)
    (acts : List Act) (dues : List Due) (before after : Reception) : Prop where
  holds : after.Holds number caller (plan.machine.follow course acts)
  heard : after.heard = before.heard ++ calls caller (course.kept plan acts)
  upcoming : after.upcoming.Perm (before.upcoming ++ dues)

variable {plan : Plan} {course : Course} {reception between later : Reception} {number : Nat}
  {caller : Option Observer} {acts behind : List Act} {dues others : List Due}

theorem now_deliver (sink : Sink) (report : Report) (reception : Reception) :
    (reception.deliver sink report).2.now = reception.now := by
  cases sink with
  | observer listener => rfl
  | inquiry number =>
    simp only [deliver, deliverToInquiry]
    split
    . rfl
    . split
      . split <;> rfl
      . rfl
  | waiter number => rfl
  | observers =>
    simp only [deliver, Fanout.hear_audience]
    exact Fanout.callAll_keeps (fun s : Reception => s.now = reception.now) (fun _ _ h => h) _ rfl

theorem Holds.look (h : reception.Holds number caller course) (deadline : Nat) :
    reception.look number deadline = course.inquiry.look deadline course.now := by
  rw [Reception.look, h.case, h.now, Option.bind_some]

theorem Holds.start (h : reception.Holds number caller course) (plan : Plan) :
    (reception.step number (.begun reception.now plan.usesUnicast)).Holds number caller
      (course.next plan .start) where
  case := by
    rw [h.now]
    exact getElem?_cases_step h.case (.begun course.now plan.usesUnicast)
  now := h.now

theorem Holds.conclude (h : reception.Holds number caller course) (plan : Plan)
    (verdict : Except Error UInt16) :
    (reception.step number (.ofVerdict verdict)).Holds number caller
      (course.next plan (.conclude verdict)) where
  case := getElem?_cases_step h.case (.ofVerdict verdict)
  now := h.now

theorem Holds.finish (h : reception.Holds number caller course) (plan : Plan) :
    (reception.step number .dispatched).Holds number caller (course.next plan .finish) where
  case := getElem?_cases_step h.case .dispatched
  now := h.now

theorem Holds.pass (h : reception.Holds number caller course) (plan : Plan) (time : Nat) :
    Holds { reception with now := max reception.now time } number caller
      (course.next plan (.pass time)) where
  case := h.case
  now := by
    rw [h.now]
    rfl

theorem Holds.deliver (h : reception.Holds number caller course) (plan : Plan) (source : Nat)
    (report : Report) :
    (reception.deliver (.inquiry number) report).2.Holds number caller
      (course.next plan (.deliver source report)) where
  case := by
    rw [cases_deliver_inquiry]
    exact getElem?_cases_step h.case (.reported report)
  now := by
    rw [now_deliver]
    exact h.now

theorem Holds.deliver_of_ne (h : reception.Holds number caller course) {sink : Sink}
    (hsink : sink ≠ .inquiry number) (report : Report) :
    (reception.deliver sink report).2.Holds number caller course where
  case := by
    rw [← h.case]
    cases sink with
    | observer listener => rfl
    | inquiry other =>
      have hother : other ≠ number := fun heq => hsink (heq ▸ rfl)
      rw [cases_deliver_inquiry]
      simp [step, hother]
    | waiter other => rfl
    | observers => rw [cases_deliver_observers]
  now := by
    rw [now_deliver]
    exact h.now

theorem Holds.heard_deliver (h : reception.Holds number caller course) (source : Nat)
    (report : Report) :
    (reception.deliver (.inquiry number) report).2.heard
      =
    reception.heard ++ calls caller (course.keptBy (.deliver source report)) := by
  simp only [Reception.deliver, deliverToInquiry, h.case, Course.keptBy]
  split
  . cases caller with
    | none => simp [calls]
    | some listener => simp [calls]
  . simp

theorem Holds.upcoming_deliver (h : reception.Holds number caller course) (report : Report) :
    (reception.deliver (.inquiry number) report).2.upcoming = reception.upcoming := by
  simp only [Reception.deliver, deliverToInquiry, h.case]
  split
  . cases caller <;> rfl
  . rfl

theorem perm_insertDue (due : Due) (upcoming : List Due) :
    (insertDue due upcoming).Perm (upcoming ++ [due]) := by
  induction upcoming with
  | nil => exact .refl _
  | cons first upcoming ih =>
    unfold insertDue
    split
    . exact (List.perm_append_singleton due (first :: upcoming)).symm
    . exact .cons first ih

namespace Performs

theorem refl (h : reception.Holds number caller course) :
    Performs plan number caller course [] [] reception reception where
  holds := h
  heard := by simp
  upcoming := by simp

theorem trans (h : Performs plan number caller course acts dues reception between)
    (h' : Performs plan number caller (plan.machine.follow course acts) behind others between
      later) :
    Performs plan number caller course (acts ++ behind) (dues ++ others) reception later where
  holds := by
    rw [Machine.follow_append]
    exact h'.holds
  heard := by
    rw [Course.kept_append, calls_append, ← List.append_assoc, ← h.heard]
    exact h'.heard
  upcoming := by
    rw [← List.append_assoc]
    exact h'.upcoming.trans (h.upcoming.append_right others)

theorem step {event : Event} {act : Act} (hkept : course.keptBy act = [])
    (h : (reception.step number event).Holds number caller (course.next plan act)) :
    Performs plan number caller course [act] [] reception (reception.step number event) where
  holds := h
  heard := by simp [Course.kept_cons, hkept]
  upcoming := by simp [Reception.step]

theorem deliver (h : reception.Holds number caller course) (source : Nat) (report : Report) :
    Performs plan number caller course [.deliver source report] [] reception
      (reception.deliver (.inquiry number) report).2 where
  holds := by
    rw [Course.follow_cons, Machine.follow_nil]
    exact h.deliver plan source report
  heard := by
    rw [Course.kept_cons, Course.kept_nil, List.append_nil]
    exact h.heard_deliver source report
  upcoming := by
    rw [h.upcoming_deliver, List.append_nil]

theorem note (h : Performs plan number caller course acts dues reception later) {entry : Entry}
    (hentry : entry.heard? = none) :
    Performs plan number caller course acts dues reception (later.note entry) where
  holds := ⟨h.holds.case, h.holds.now⟩
  heard := by
    rw [heard_note, hentry, h.heard]
    simp
  upcoming := h.upcoming

theorem measure (h : Performs plan number caller course acts dues reception later)
    (samples : List Sample) :
    Performs plan number caller course acts dues reception (later.measure samples) :=
  ⟨⟨h.holds.case, h.holds.now⟩, h.heard, h.upcoming⟩

end Performs

end Reception

def Reaction.dues (reaction : Reaction) (now : Nat) (sink : Sink) : List Reception.Due :=
  reaction.later.map fun later => ⟨now + later.1, sink, later.2⟩

namespace Reception

variable {plan : Plan} {course : Course} {reception later : Reception} {number : Nat}
  {caller : Option Observer} {acts : List Act} {dues : List Due}

theorem Performs.schedule (h : Performs plan number caller course acts dues reception later)
    (sink : Sink) (reports : List (Nat × Report)) :
    Performs plan number caller course acts
      (dues ++ reports.map fun report => ⟨later.now + report.1, sink, report.2⟩) reception
      (reports.foldl (schedule sink) later) := by
  induction reports generalizing later dues with
  | nil =>
    rw [List.map_nil, List.append_nil]
    exact h
  | cons report reports ih =>
    let due : Due := ⟨later.now + report.1, sink, report.2⟩
    have hfirst : Performs plan number caller course acts (dues ++ [due]) reception
        (Reception.schedule sink later report) := by
      refine ⟨⟨h.holds.case, h.holds.now⟩, h.heard, ?_⟩
      rw [← List.append_assoc]
      exact (perm_insertDue due later.upcoming).trans (h.upcoming.append_right [due])
    have hall := ih hfirst
    rw [List.append_assoc] at hall
    exact hall

theorem Holds.performs_reports (h : reception.Holds number caller course) (plan : Plan)
    (source : Nat) (peer : String) (reports : List Report) :
    Performs plan number caller course (reports.map (.deliver source)) [] reception
      (reports.foldl
        (fun reception report =>
          (reception.deliver (.inquiry number) report).2.note
            (.delivered peer (reception.deliver (.inquiry number) report).1))
        reception) := by
  induction reports generalizing reception course with
  | nil => exact .refl h
  | cons report reports ih =>
    have hfirst : Performs plan number caller course [.deliver source report] [] reception
        ((reception.deliver (.inquiry number) report).2.note
          (.delivered peer (reception.deliver (.inquiry number) report).1)) :=
      (Performs.deliver h source report).note rfl
    exact hfirst.trans (ih hfirst.holds)

theorem Holds.performs_reaction (h : reception.Holds number caller course) (plan : Plan)
    (source : Nat) (peer : String) (query : Message) (reaction : Reaction) :
    Performs plan number caller course (reaction.acts source)
      (reaction.dues course.now (.inquiry number)) reception
      (((reception.note (.asked peer query)).receive peer (.inquiry number) reaction).step number
        (.ofVerdict reaction.verdict)) := by
  have hasked : Performs plan number caller course [] [] reception
      (reception.note (.asked peer query)) :=
    (Performs.refl h).note rfl
  have hreports := (hasked.holds.performs_reports plan source peer reaction.reports).measure
    reaction.samples
  have hnow := hreports.holds.now
  rw [Course.now_follow_reports] at hnow
  have hscheduled := (hasked.trans hreports).schedule (.inquiry number) reaction.later
  rw [hnow] at hscheduled
  have hconclude := hscheduled.trans
    (Performs.step rfl (hscheduled.holds.conclude plan reaction.verdict))
  rw [List.append_nil] at hconclude
  exact hconclude

end Reception

end Zeroconf
