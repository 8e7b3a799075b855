import Zeroconf.Proofs.Reception.Course

/-!
This module contains the rule by which an inquiry tells its own messages from others while it is
sent. Not the numbers under which the query is taken in the end decide about a message, but those
that are known when it arrives.
-/

namespace Zeroconf.Inquiry

def Act.taken? : Act → Option UInt16
  | .conclude (.ok id) => some id
  | _ => none

theorem isAttributed_iff {inquiry : Inquiry} {id : UInt16} {response : Message} :
    inquiry.isAttributed id response = true
      ↔
    inquiry.ids = [] ∨ id ∈ inquiry.ids ∨ inquiry.query.isAnsweredBy response = true := by
  unfold isAttributed
  rw [Bool.or_eq_true, Bool.or_eq_true, List.isEmpty_iff, List.contains_iff_mem, or_assoc]

namespace Course

theorem ids_next (plan : Plan) (course : Course) (act : Act) :
    (course.next plan act).inquiry.ids = course.inquiry.ids ++ act.taken?.toList := by
  cases act with
  | pass time => simp [next, Act.taken?]
  | start =>
    simp only [next, step, Act.taken?]
    split <;> simp
  | conclude verdict =>
    cases verdict with
    | ok id => simp [next, step_ofVerdict_ok, Act.taken?]
    | error error => simp [next, step_ofVerdict_error, Act.taken?]
  | finish => simp [next, step, Act.taken?]
  | deliver source report => simp [next, step_reported _ source, Act.taken?]

theorem ids_follow (plan : Plan) (course : Course) (acts : List Act) :
    (plan.machine.follow course acts).inquiry.ids
      =
    course.inquiry.ids ++ acts.filterMap Act.taken? := by
  exact read_follow (·.inquiry.ids) Act.taken? (ids_next plan) course acts

theorem next_deliver_message (plan : Plan) (course : Course) (source : Nat) (id : UInt16)
    (response : Message) :
    course.next plan (.deliver source ⟨id, .message response⟩)
      =
    if course.inquiry.isAttributed id response then
      { course with
        inquiry := { course.inquiry with replies := course.inquiry.replies ++ [.message response] }
        record := course.record ++ [⟨source, .answer, .message response⟩] }
    else
      course := by
  simp only [next, step, keeps, Contribution.ofReport]
  split
  . next h => simp [h]
  . next h => simp [h]

def Records (plan : Plan) (course : Course) (source : Nat) (report : Report) : Prop :=
  (course.next plan (.deliver source report)).inquiry.replies
    = course.inquiry.replies ++ [report.reply]

instance (plan : Plan) (course : Course) (source : Nat) (report : Report) :
    Decidable (course.Records plan source report) :=
  inferInstanceAs (Decidable (_ = _))

theorem records_message_iff {plan : Plan} {course : Course} {source : Nat} {id : UInt16}
    {response : Message} :
    course.Records plan source ⟨id, .message response⟩
      ↔
    course.inquiry.isAttributed id response = true := by
  rw [Records, next_deliver_message]
  split
  . next h => simp [h]
  . next h => simp [h]

end Course

/--
A message is put on record exactly if, when it is delivered, no number of a request is known, or it
has one of the numbers known, or it holds an answer. It stays on record, and is passed over without
a trace otherwise. A rule that looks at all numbers under which the query is taken in the end
differs in two cases: with no number known yet it leaves out what is unrelated, and with some number
known it keeps what has a number that becomes known later.
-/
theorem records_message_iff_known {plan : Plan} {now : Nat} {front behind : List Act}
    {source : Nat} {id : UInt16} {response : Message}
    (hadmits : plan.machine.Admits (Course.initial plan now)
      (front ++ .deliver source ⟨id, .message response⟩ :: behind)) :
    let report : Report := ⟨id, .message response⟩
    let before := plan.machine.follow (Course.initial plan now) front
    let after := before.next plan (.deliver source report)
    let last := plan.machine.follow after behind
    let known := front.filterMap Act.taken?
    let coming := behind.filterMap Act.taken?
    let answers := plan.query.isAnsweredBy response = true
    (before.Records plan source report ↔ known = [] ∨ id ∈ known ∨ answers) ∧
    (¬ before.Records plan source report → after = before) ∧
    after.inquiry.replies <+: last.inquiry.replies ∧
    ((before.Records plan source report ↔ id ∈ known ++ coming ∨ answers) ↔
      answers ∨ id ∈ known ∨ (known = [] ↔ id ∈ coming)) ∧
    (∀ (reception : Reception) (number : Nat) (caller : Option Observer),
      reception.Holds number caller before →
      (reception.deliver (.inquiry number) report).2.Holds number caller after) := by
  intro report before after last known coming answers
  rw [Machine.admits_append_iff] at hadmits
  rcases hadmits with ⟨hfront, -, hbehind⟩
  have hbefore : plan.Reaches before := ⟨now, .follow hfront⟩
  have hids : before.inquiry.ids = known := by
    simp only [before, Course.ids_follow]
    rfl
  have hrecords : before.Records plan source report ↔ known = [] ∨ id ∈ known ∨ answers := by
    rw [Course.records_message_iff, isAttributed_iff, hids, hbefore.valid.query]
  refine ⟨hrecords, ?_, ?_, ?_, ?_⟩
  . intro hnot
    rw [Course.records_message_iff] at hnot
    simp only [after, report, Course.next_deliver_message, if_neg hnot]
  . exact (Plan.Run.follow hbehind).follows.replies
  . rw [hrecords, List.mem_append]
    tauto
  . intro reception number caller hholds
    exact hholds.deliver plan source report

def localName (letter : UInt8) : Name := ⟨[[letter], [0x6C, 0x6F, 0x63, 0x61, 0x6C]], true⟩

def unrelatedResponse : Message :=
  { isResponse := true, answers := [⟨localName 0x6F, .a, 1, 120, .a ⟨10, 0, 0, 1⟩⟩] }

def localPlan (responders : Nat) : Plan :=
  ⟨{ id := 42, questions := [⟨localName 0x68, .a, 1⟩] }, 100, 1000, responders, 0⟩

/--
The first responder has taken the query, and the second one speaks of something else under the
number that it is about to return.
-/
theorem records_message_iff_known_second :
    let plan := localPlan 2
    let front : List Act := [.start, .conclude (.ok 42)]
    let behind : List Act := [.conclude (.ok 9), .finish]
    let report : Report := ⟨9, .message unrelatedResponse⟩
    let before := plan.machine.follow (Course.initial plan 0) front
    plan.machine.Admits (Course.initial plan 0) (front ++ .deliver 1 report :: behind) ∧
      before.next plan (.deliver 1 report) = before := by
  intro plan front behind report before
  have hadmits : plan.machine.Admits (Course.initial plan 0)
      (front ++ .deliver 1 report :: behind) := by
    decide
  rcases records_message_iff_known hadmits with ⟨-, hpassed, -⟩
  exact ⟨hadmits, hpassed (by decide)⟩

/--
Something unrelated is put on record that arrives before the query is taken by anybody, and a
message is lost that arrives just before its number becomes known.
-/
theorem not_records_message_iff_taken :
    (¬ ∀ (plan : Plan) (now : Nat) (front behind : List Act) (source : Nat) (id : UInt16)
        (response : Message),
      plan.machine.Admits (Course.initial plan now)
        (front ++ .deliver source ⟨id, .message response⟩ :: behind) →
      (front ++ behind).filterMap Act.taken? ≠ [] →
      (plan.machine.follow (Course.initial plan now) front).Records plan source
        ⟨id, .message response⟩ →
      id ∈ (front ++ behind).filterMap Act.taken? ∨ plan.query.isAnsweredBy response = true) ∧
    (¬ ∀ (plan : Plan) (now : Nat) (front behind : List Act) (source : Nat) (id : UInt16)
        (response : Message),
      plan.machine.Admits (Course.initial plan now)
        (front ++ .deliver source ⟨id, .message response⟩ :: behind) →
      (front ++ behind).filterMap Act.taken? ≠ [] →
      (id ∈ (front ++ behind).filterMap Act.taken? ∨ plan.query.isAnsweredBy response = true) →
      (plan.machine.follow (Course.initial plan now) front).Records plan source
        ⟨id, .message response⟩) := by
  constructor
  . intro hall
    have hbelongs := hall (localPlan 1) 0 [.start] [.conclude (.ok 42), .finish] 0 7
      unrelatedResponse (by decide) (by decide) (by decide)
    exact absurd hbelongs (by decide)
  . intro hall
    have hrecords := hall (localPlan 2) 0 [.start, .conclude (.ok 42)] [.conclude (.ok 9), .finish]
      1 9 unrelatedResponse (by decide) (by decide) (by decide)
    exact absurd hrecords (by decide)

end Zeroconf.Inquiry
