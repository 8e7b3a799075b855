import Mathlib.Algebra.BigOperators.Group.Finset.Basic
import Mathlib.Algebra.BigOperators.Group.Finset.Piecewise
import Mathlib.Algebra.Order.BigOperators.Group.Finset
import Zeroconf.Proofs.Inquiry.Completion

/-!
This module contains the question whether a complete inquiry has heard of everybody who was asked.
It has not if somebody is silent and others make up for it by saying more than one thing.
-/

namespace Zeroconf.Inquiry

open scoped BigOperators

namespace Course

def share (course : Course) (source : Nat) : Nat := course.record.countP (·.source == source)

def silent (plan : Plan) (course : Course) : Nat :=
  ((Finset.range plan.selected).filter fun source => course.share source = 0).card

/--
How many replies on record are not the first one of their source.
-/
def surplus (plan : Plan) (course : Course) : Nat :=
  ∑ source ∈ Finset.range plan.selected, (course.share source - 1)

def HeardAll (plan : Plan) (course : Course) : Prop :=
  ∀ source < plan.selected, 0 < course.share source

end Course

theorem sum_countP_source {record : List Contribution} {n : Nat}
    (h : ∀ contribution ∈ record, contribution.source < n) :
    ∑ source ∈ Finset.range n, record.countP (·.source == source) = record.length := by
  induction record with
  | nil => simp
  | cons contribution record ih =>
    rw [List.forall_mem_cons] at h
    simp only [List.countP_cons, Finset.sum_add_distrib, ih h.2, beq_iff_eq, Finset.sum_ite_eq,
      Finset.mem_range, h.1, if_pos, List.length_cons]

namespace Course

variable {plan : Plan} {course : Course}

theorem Valid.length_add_silent (h : course.Valid plan) :
    course.record.length + course.silent plan = plan.selected + course.surplus plan := by
  rw [← sum_countP_source h.source_lt]
  unfold silent surplus
  rw [Finset.card_filter, ← Finset.sum_add_distrib]
  calc ∑ source ∈ Finset.range plan.selected,
        (course.share source + if course.share source = 0 then 1 else 0)
      = ∑ source ∈ Finset.range plan.selected, (1 + (course.share source - 1)) := by
        apply Finset.sum_congr rfl
        intro source _
        split <;> omega
    _ = plan.selected + ∑ source ∈ Finset.range plan.selected, (course.share source - 1) := by
        rw [Finset.sum_add_distrib, ← Finset.card_eq_sum_ones, Finset.card_range]

theorem silent_eq_zero_iff : course.silent plan = 0 ↔ course.HeardAll plan := by
  simp only [HeardAll, silent, Finset.card_eq_zero, Finset.filter_eq_empty_iff, Finset.mem_range,
    Nat.pos_iff_ne_zero, ne_eq]

theorem surplus_eq_zero_iff :
    course.surplus plan = 0 ↔ ∀ source < plan.selected, course.share source ≤ 1 := by
  simp only [surplus, Finset.sum_eq_zero_iff, Finset.mem_range, Nat.sub_eq_zero_iff_le]

theorem Valid.hasResults_iff_silent (h : course.Valid plan) :
    course.inquiry.hasResults = true
      ↔
    course.inquiry.phase = .started ∧ course.silent plan ≤ course.surplus plan := by
  have := h.length_add_silent
  rw [h.hasResults_iff]
  constructor
  . rintro ⟨hphase, hlength⟩
    exact ⟨hphase, by omega⟩
  . rintro ⟨hphase, hlength⟩
    exact ⟨hphase, by omega⟩

theorem Valid.share_of_selected_le_one (h : course.Valid plan) (hselected : plan.selected ≤ 1)
    {source : Nat} (hsource : source < plan.selected) :
    course.share source = course.record.length := by
  unfold share
  rw [List.countP_eq_length]
  intro contribution hmem
  have := h.source_lt contribution hmem
  rw [beq_iff_eq]
  omega

end Course

variable {plan : Plan} {course : Course}

theorem exists_run_repeat (message : Message) (n : Nat) (hselected : 0 < plan.selected)
    (hphase : course.inquiry.phase = .dispatching) (hids : course.inquiry.ids = []) :
    ∃ later, plan.Run course later ∧ later.inquiry.phase = .dispatching ∧
      later.inquiry.ids = [] ∧ later.inquiry.sent = course.inquiry.sent ∧
      later.record = course.record ++ List.replicate n ⟨0, .answer, .message message⟩ := by
  induction n with
  | zero => exact ⟨course, .refl course, hphase, hids, rfl, by simp⟩
  | succ n ih =>
    rcases ih with ⟨later, hrun, hlater, hnone, hsent, hrecord⟩
    have henabled : later.Enabled plan (.deliver 0 ⟨0, .message message⟩) :=
      ⟨by simp [hlater], hselected, Nat.zero_le _⟩
    refine ⟨_, hrun.tail _ henabled, ?_⟩
    simp only [Course.next, Course.step_reported _ 0]
    refine ⟨hlater, hnone, hsent, ?_⟩
    simp [Contribution.ofReport, isAttributed, hnone, hrecord, List.replicate_succ']

theorem exists_run_taken (n : Nat) (hphase : course.inquiry.phase = .dispatching)
    (hsent : course.inquiry.sent + n ≤ plan.selected) :
    ∃ later, plan.Run course later ∧ later.inquiry.phase = .dispatching ∧
      later.inquiry.sent = course.inquiry.sent + n ∧ later.record = course.record := by
  induction n with
  | zero => exact ⟨course, .refl course, hphase, rfl, rfl⟩
  | succ n ih =>
    rcases ih (by omega) with ⟨later, hrun, hlater, hcount, hrecord⟩
    have henabled : later.Enabled plan (.conclude (.ok 0)) := ⟨hlater, by omega⟩
    refine ⟨_, hrun.tail _ henabled, ?_⟩
    simp only [Course.next, step_ofVerdict_ok]
    exact ⟨hlater, by omega, by simp [Contribution.ofVerdict, hrecord]⟩

theorem exists_complete_course (plan : Plan) (message : Message) (h : 0 < plan.selected) :
    ∃ course, plan.Reaches course ∧ course.inquiry.hasResults = true ∧
      course.record = List.replicate plan.selected ⟨0, .answer, .message message⟩ := by
  -- The first one answers for all while it is asked, and then all queries are taken.
  let begun := (Course.initial plan 0).next plan .start
  have hbegun : plan.Reaches begun := ⟨0, .single .start trivial⟩
  have hdispatching : begun.inquiry.phase = .dispatching := rfl
  have hnobody : begun.inquiry.sent = 0 := rfl
  rcases exists_run_repeat message plan.selected h hdispatching rfl with
    ⟨heard, hheard, hphase, -, hsent, hrecord⟩
  have hroom : heard.inquiry.sent + plan.selected ≤ plan.selected := by omega
  rcases exists_run_taken plan.selected hphase hroom with ⟨asked, hasked, hphase, hall, hsame⟩
  have hreaches : plan.Reaches (asked.next plan .finish) :=
    hbegun.trans (hheard.trans (hasked.tail .finish ⟨hphase, by omega⟩))
  have hcomplete : (asked.next plan .finish).record
      = List.replicate plan.selected ⟨0, .answer, .message message⟩ := by
    simp [Course.next, hsame, hrecord, begun, Course.initial]
  refine ⟨_, hreaches, ?_, hcomplete⟩
  rw [hreaches.valid.hasResults_iff, hcomplete, List.length_replicate]
  exact ⟨rfl, Nat.le_refl _⟩

/--
A complete inquiry has heard of everybody in all of its courses only if there are no two who are
asked. In a single course somebody may be silent exactly if others have said enough in surplus, and
if nobody says more than one thing, then to be complete is to have heard of everybody.
-/
theorem heardAll_of_hasResults_iff (plan : Plan) :
    ((∀ course, plan.Reaches course →
        course.inquiry.hasResults = true → course.HeardAll plan)
      ↔
    plan.selected ≤ 1) ∧
    (∀ course, plan.Reaches course →
      ((course.inquiry.hasResults = true → course.HeardAll plan)
        ↔
      ¬(course.inquiry.phase = .started ∧ 0 < course.silent plan ∧
        course.silent plan ≤ course.surplus plan))) ∧
    (∀ course, plan.Reaches course → (∀ source < plan.selected, course.share source ≤ 1) →
      (course.inquiry.hasResults = true
        ↔
      course.inquiry.phase = .started ∧ course.HeardAll plan)) := by
  refine ⟨⟨?_, ?_⟩, ?_, ?_⟩
  . intro hall
    rw [← Nat.not_lt]
    intro hselected
    rcases exists_complete_course plan {} (by omega) with ⟨course, hreaches, hresults, hrecord⟩
    have := hall course hreaches hresults 1 hselected
    simp [Course.share, hrecord] at this
  . intro hselected course hreaches hresults source hsource
    rw [hreaches.valid.hasResults_iff] at hresults
    rw [hreaches.valid.share_of_selected_le_one hselected hsource]
    omega
  . intro course hreaches
    rw [hreaches.valid.hasResults_iff_silent, ← Course.silent_eq_zero_iff]
    constructor
    . rintro himp ⟨hphase, hsilent, hle⟩
      have := himp ⟨hphase, hle⟩
      omega
    . rintro hnot ⟨hphase, hle⟩
      by_contra hsilent
      exact hnot ⟨hphase, by omega, hle⟩
  . intro course hreaches hshare
    rw [← Course.surplus_eq_zero_iff] at hshare
    rw [hreaches.valid.hasResults_iff_silent, ← Course.silent_eq_zero_iff, hshare, Nat.le_zero]

/--
A single responder who answers twice, and a responder who answers beside a nameserver who refuses.
-/
theorem heardAll_of_hasResults_iff_pair :
    let host : Name := ⟨[[0x68], [0x6C, 0x6F, 0x63, 0x61, 0x6C]], true⟩
    let answer : Act := .deliver 0 ⟨0, .message { isResponse := true }⟩
    let single : Plan := ⟨{ questions := [⟨host, .a, 1⟩] }, 100, 1000, 1, 0⟩
    let pair : Plan := ⟨{ questions := [⟨host, .a, 1⟩, ⟨.root, .a, 1⟩] }, 100, 1000, 1, 1⟩
    (single.machine.follow (Course.initial single 0)
      [.start, answer, .conclude (.ok 0), answer, .finish]).HeardAll single ∧
    (pair.machine.follow (Course.initial pair 0)
      [.start, .conclude (.ok 0), .conclude (.error .timeout), .finish, answer]).HeardAll pair := by
  intro host answer single pair
  rcases heardAll_of_hasResults_iff single with ⟨hselected, -, -⟩
  rcases heardAll_of_hasResults_iff pair with ⟨-, -, hshare⟩
  constructor
  . exact hselected.mpr (by decide) _ ⟨0, .follow (by decide)⟩ (by decide)
  . exact ((hshare _ ⟨0, .follow (by decide)⟩ (by decide)).mp (by decide)).2

/--
Two responders, one of which answers twice while the other one says nothing.
-/
theorem complete_without_second :
    ¬ ∀ (plan : Plan) (course : Course), plan.Reaches course → course.inquiry.hasResults = true →
      course.HeardAll plan := by
  intro hall
  let host : Name := ⟨[[0x68], [0x6C, 0x6F, 0x63, 0x61, 0x6C]], true⟩
  let plan : Plan := ⟨{ questions := [⟨host, .a, 1⟩] }, 100, 1000, 2, 0⟩
  let answer : Act := .deliver 0 ⟨0, .message { isResponse := true }⟩
  let course := plan.machine.follow (Course.initial plan 0)
    [.start, answer, answer, .conclude (.ok 0), .conclude (.ok 0), .finish]
  have hreaches : plan.Reaches course := ⟨0, .follow (by decide)⟩
  have hheard := hall plan course hreaches (by decide) 1 (by decide)
  have hsilent : course.share 1 = 0 := by decide
  omega

end Zeroconf.Inquiry
