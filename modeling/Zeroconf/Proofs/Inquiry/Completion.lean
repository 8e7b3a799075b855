import Zeroconf.Proofs.Inquiry.Course
import Zeroconf.Proofs.Querier.Start
import Zeroconf.Proofs.Reception

/-!
This module contains the proof that an inquiry is complete in exactly those courses in which it has
been sent to everybody and there are enough replies, whatever comes in at whatever time, and that
waiting for it ends either with completeness or at the deadline.
-/

namespace Zeroconf.Inquiry

theorem length_eq_tallies (course : Course) :
    course.record.length
      =
    course.tally .answer + course.tally .failure + course.tally .refusal := by
  unfold Course.tally
  induction course.record with
  | nil => rfl
  | cons contribution record ih =>
    simp only [List.length_cons, List.countP_cons, ih]
    cases contribution.kind <;> simp <;> omega

theorem Course.Valid.length_replies {plan : Plan} {course : Course} (h : course.Valid plan) :
    course.inquiry.replies.length
      =
    course.tally .answer + course.tally .failure + course.tally .refusal := by
  rw [h.replies, List.length_map, length_eq_tallies]

theorem Course.Valid.hasResults_iff {plan : Plan} {course : Course} (h : course.Valid plan) :
    course.inquiry.hasResults = true
      ↔
    course.inquiry.phase = .started ∧ plan.selected ≤ course.record.length := by
  rw [Inquiry.hasResults_iff, h.replies, List.length_map]
  constructor
  . rintro ⟨hphase, hlength⟩
    exact ⟨hphase, h.started hphase ▸ hlength⟩
  . rintro ⟨hphase, hlength⟩
    exact ⟨hphase, h.started hphase ▸ hlength⟩

theorem look_eq_true_iff {inquiry : Inquiry} {deadline now : Nat} :
    inquiry.look deadline now = some true ↔ inquiry.hasResults = true := by
  unfold look
  split
  . simp_all
  . split <;> simp_all

theorem look_eq_false_iff {inquiry : Inquiry} {deadline now : Nat} :
    inquiry.look deadline now = some false ↔ inquiry.hasResults = false ∧ deadline ≤ now := by
  unfold look
  split
  . simp_all
  . split <;> simp_all

theorem Course.Valid.deadline_start {plan : Plan} {course : Course} (h : course.Valid plan)
    (hphase : course.inquiry.phase = .created) :
    (course.next plan .start).inquiry.deadline
      =
    course.now +
      (if plan.usesUnicast then plan.timeout else min plan.responseWait plan.timeout) := by
  simp only [Course.next, step_begun_of_created hphase, deadline, h.timeout, h.responseWait]

theorem ne_created_next_start (plan : Plan) (course : Course) :
    (course.next plan .start).inquiry.phase ≠ .created := by
  by_cases hphase : course.inquiry.phase = .created
  . simp [Course.next, step_begun_of_created hphase]
  . simpa [Course.next, step_begun_of_ne_created hphase] using hphase

theorem deadline_of_run {plan : Plan} {before course : Course} (h : plan.Reaches before)
    (hphase : before.inquiry.phase = .created) (hrun : plan.Run (before.next plan .start) course) :
    course.inquiry.deadline
      =
    before.now +
      (if plan.usesUnicast then plan.timeout else min plan.responseWait plan.timeout) := by
  rw [hrun.follows.deadline (ne_created_next_start plan before)]
  exact h.valid.deadline_start hphase

theorem look_of_wait {reception : Reception} {number : Nat} {caller : Option Observer}
    {course later : Course} (h : reception.Holds number caller course)
    (hlater : (reception.wait number).2.Holds number caller later) :
    later.inquiry.look course.inquiry.deadline later.now = some (reception.wait number).1 := by
  have hseen := Reception.look_wait h.case
  rw [hlater.look] at hseen
  exact hseen

/--
An inquiry is complete in exactly those courses in which its sending has ended, everybody having
been asked, and at least as many answers, failures and refusals are on record. Replies are only ever
added, and it stays complete. Who waits for it sees completeness or its deadline in the past, and
the waiting ends with what is seen. What a querier does that sends an inquiry and waits for it is
such a course.
-/
theorem hasResults_course_iff (plan : Plan) :
    (∀ course, plan.Reaches course →
      (course.inquiry.sent < plan.selected → course.inquiry.hasResults = false) ∧
      (course.inquiry.phase = .started → course.inquiry.sent = plan.selected) ∧
      (course.inquiry.hasResults = true ↔
        course.inquiry.phase = .started ∧
          plan.selected ≤ course.tally .answer + course.tally .failure + course.tally .refusal) ∧
      course.inquiry.replies.length
        = course.tally .answer + course.tally .failure + course.tally .refusal ∧
      ∀ later, plan.Run course later →
        course.inquiry.replies <+: later.inquiry.replies ∧
        (course.inquiry.hasResults = true → later.inquiry.hasResults = true)) ∧
    (∀ before course later, plan.Reaches before → before.inquiry.phase = .created →
      plan.Run (before.next plan .start) course → plan.Run course later →
      (later.inquiry.look course.inquiry.deadline later.now = some true →
        later.inquiry.hasResults = true) ∧
      (later.inquiry.look course.inquiry.deadline later.now = some false →
        before.now + (if plan.usesUnicast then plan.timeout
          else min plan.responseWait plan.timeout) ≤ later.now)) ∧
    (∀ (reception : Reception) (number : Nat) (case : Reception.Case),
      reception.cases[number]? = some case →
      (reception.wait number).2.look number case.inquiry.deadline
        = some (reception.wait number).1) ∧
    (∀ (P U : Type) [Peer P] [Peer U] (querier : Querier P U) (caller : Option Observer),
      querier.closed = false → querier.plan plan.query = plan →
      ∃ course later,
        plan.Run ((Course.initial plan querier.reception.now).next plan .start) course ∧
        plan.Run course later ∧
        (querier.resolve plan.query caller).2.reception.Holds querier.reception.cases.length caller
          course ∧
        ((querier.resolve plan.query caller).2.reception.wait
          querier.reception.cases.length).2.Holds querier.reception.cases.length caller later ∧
        later.inquiry.look course.inquiry.deadline later.now
          = some ((querier.resolve plan.query caller).2.reception.wait
            querier.reception.cases.length).1 ∧
        course.inquiry.phase = .started) := by
  refine ⟨?_, ?_, fun reception number case => Reception.look_wait, ?_⟩
  . intro course hreaches
    have hvalid := hreaches.valid
    refine ⟨?_, hvalid.started, ?_, hvalid.length_replies, ?_⟩
    . intro hlt
      rw [Bool.eq_false_iff, ne_eq, hvalid.hasResults_iff]
      rintro ⟨hphase, -⟩
      have := hvalid.started hphase
      omega
    . rw [hvalid.hasResults_iff, length_eq_tallies]
    . intro later hrun
      exact ⟨hrun.follows.replies, hrun.follows.hasResults⟩
  . intro before course later hreaches hphase hcourse hlater
    rw [look_eq_true_iff, look_eq_false_iff, deadline_of_run hreaches hphase hcourse]
    exact ⟨id, And.right⟩
  . intro P U _ _ querier caller hopen hplan
    rcases querier.resolve_holds plan.query caller hopen with ⟨course, hrun, hholds, hstarted⟩
    rw [hplan] at hrun
    have hreaches : plan.Reaches course :=
      ⟨_, (Plan.Run.single .start trivial).trans hrun⟩
    rcases hholds.wait hreaches.valid hstarted with ⟨later, hlater, hwait, -⟩
    exact ⟨course, later, hrun, hlater, hholds, hwait, look_of_wait hholds hwait, hstarted⟩

/--
A responder answers at once and a nameserver refuses. As long as the sending has not ended, somebody
who waits goes away at the deadline in spite of the two replies.
-/
theorem hasResults_course_iff_pair :
    let host : Name := ⟨[[0x68], [0x6C, 0x6F, 0x63, 0x61, 0x6C]], true⟩
    let query : Message := { id := 42, questions := [⟨host, .a, 1⟩, ⟨.root, .a, 1⟩] }
    let plan : Plan := ⟨query, 100, 1000, 1, 1⟩
    let before := plan.machine.follow (Course.initial plan 5) [.pass 10]
    let course := plan.machine.follow (before.next plan .start)
      [.deliver 0 ⟨9, .message { isResponse := true }⟩, .conclude (.ok 42),
        .conclude (.error .timeout)]
    let late := plan.machine.follow course [.pass 1010]
    let complete := plan.machine.follow late [.finish]
    late.inquiry.look course.inquiry.deadline late.now = some false ∧
      before.now + 1000 ≤ late.now ∧
      complete.inquiry.hasResults = true := by
  intro host query plan before course late complete
  rcases hasResults_course_iff plan with ⟨hstate, hwait, -, -⟩
  have hbefore : plan.Reaches before := ⟨5, .follow (by decide)⟩
  have hcourse : plan.Run (before.next plan .start) course := .follow (by decide)
  have hlate : plan.Run course late := .follow (by decide)
  have hcomplete : plan.Run late complete := .follow (by decide)
  have hreaches := hbefore.trans
    (((Plan.Run.single .start trivial).trans hcourse).trans (hlate.trans hcomplete))
  have hseen : late.inquiry.look course.inquiry.deadline late.now = some false := by decide
  rcases hwait before course late hbefore rfl hcourse hlate with ⟨-, hdeadline⟩
  rcases hstate complete hreaches with ⟨-, -, hiff, -⟩
  exact ⟨hseen, hdeadline hseen, hiff.mpr (by decide)⟩

/--
It is not enough that everybody has been asked and has replied: as long as the sending has not
ended, an inquiry is incomplete. So is one that is to be sent to nobody and has not begun.
-/
theorem incomplete_while_sending :
    let host : Name := ⟨[[0x68], [0x6C, 0x6F, 0x63, 0x61, 0x6C]], true⟩
    let query : Message := { id := 42, questions := [⟨host, .a, 1⟩] }
    let single : Plan := ⟨query, 100, 1000, 1, 0⟩
    let refused := single.machine.follow (Course.initial single 5)
      [.start, .conclude (.error .timeout)]
    let nobody : Plan := ⟨query, 100, 1000, 0, 0⟩
    let unbegun := Course.initial nobody 5
    (single.Reaches refused ∧ refused.inquiry.sent = single.selected ∧
      single.selected ≤ refused.inquiry.replies.length ∧ refused.inquiry.hasResults = false) ∧
    nobody.Reaches unbegun ∧ unbegun.inquiry.sent = nobody.selected ∧
      nobody.selected ≤ unbegun.inquiry.replies.length ∧ unbegun.inquiry.hasResults = false := by
  intro host query single refused nobody unbegun
  have hrefused : single.Reaches refused := ⟨5, .follow (by decide)⟩
  have hunbegun : nobody.Reaches unbegun := ⟨5, .refl _⟩
  exact ⟨⟨hrefused, by decide⟩, hunbegun, by decide⟩

end Zeroconf.Inquiry
