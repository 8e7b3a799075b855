import Zeroconf.Peer
import Zeroconf.Proofs.Inquiry.Course

/-!
This module contains the course that an inquiry takes while others are asked one after the other, as
it follows from their reactions: which acts happen, and what each of those asked has on record
afterwards.
-/

namespace Zeroconf

open Inquiry

namespace Reaction

/--
What happens while the one with the number `source` is asked: reports, and then the verdict.
-/
def acts (reaction : Reaction) (source : Nat) : List Act :=
  reaction.reports.map (.deliver source) ++ [.conclude reaction.verdict]

def refusals : Except Error UInt16 → List Reply
  | .ok _ => []
  | .error error => [.failure error]

def immediate (reaction : Reaction) : List Reply :=
  reaction.reports.map (·.reply) ++ refusals reaction.verdict

def outcomes (reaction : Reaction) : List Reply :=
  reaction.immediate ++ reaction.later.map (·.2.reply)

/--
The part of the reactions that is due to `source` if those who react are numbered from `first` on.
-/
def partOf (part : Reaction → List Reply) (first source : Nat) (reactions : List Reaction) :
    List Reply :=
  if first ≤ source then ((reactions[source - first]?).map part).getD [] else []

variable {part : Reaction → List Reply}

theorem partOf_nil (first source : Nat) : partOf part first source [] = [] := by
  simp [partOf]

theorem partOf_cons (first source : Nat) (reaction : Reaction) (reactions : List Reaction) :
    partOf part first source (reaction :: reactions)
      =
    (if first = source then part reaction else []) ++ partOf part (first + 1) source reactions := by
  unfold partOf
  rcases Nat.lt_trichotomy first source with hlt | heq | hgt
  . have hbehind : source - first = source - (first + 1) + 1 := by omega
    rw [if_pos (Nat.le_of_lt hlt), if_neg (Nat.ne_of_lt hlt), if_pos (Nat.succ_le_of_lt hlt),
      hbehind, List.getElem?_cons_succ, List.nil_append]
  . subst heq
    rw [if_pos (Nat.le_refl first), if_pos rfl, if_neg (Nat.not_succ_le_self first)]
    simp
  . rw [if_neg (Nat.not_le_of_gt hgt), if_neg (Nat.ne_of_gt hgt),
      if_neg (Nat.not_le_of_gt (Nat.lt_succ_of_lt hgt)), List.nil_append]

theorem partOf_zero (source : Nat) (reactions : List Reaction) :
    partOf part 0 source reactions = ((reactions[source]?).map part).getD [] := by
  rw [partOf, if_pos (Nat.zero_le source), Nat.sub_zero]

end Reaction

namespace Inquiry

/--
What happens while all are asked in turn, the first one having the number `source`.
-/
def askingActs (source : Nat) : List Reaction → List Act
  | [] => []
  | reaction :: reactions => reaction.acts source ++ askingActs (source + 1) reactions

theorem askingActs_append (source : Nat) (front behind : List Reaction) :
    askingActs source (front ++ behind)
      =
    askingActs source front ++ askingActs (source + front.length) behind := by
  induction front generalizing source with
  | nil => rfl
  | cons reaction front ih =>
    rw [List.cons_append, askingActs, ih, askingActs, List.append_assoc, List.length_cons,
      Nat.add_assoc source 1, Nat.add_comm 1]

namespace Course

structure Asks (course : Course) (source : Nat) : Prop where
  phase : course.inquiry.phase = .dispatching
  sent : course.inquiry.sent = source

structure Settled (plan : Plan) (course : Course) : Prop where
  phase : course.inquiry.phase = .started
  sent : course.inquiry.sent = plan.selected

def repliesOf (course : Course) (source : Nat) : List Reply :=
  (course.record.filter (·.source == source)).map (·.reply)

section Turns

variable {course : Course} {source : Nat}

theorem Asks.start (plan : Plan) (hphase : course.inquiry.phase = .created)
    (hsent : course.inquiry.sent = 0) : (course.next plan .start).Asks 0 := by
  rw [next, step_begun_of_created hphase]
  exact ⟨rfl, hsent⟩

theorem Asks.deliver (h : course.Asks source) (plan : Plan) (other : Nat) (report : Report) :
    (course.next plan (.deliver other report)).Asks source where
  phase := by rw [phase_next_deliver, h.phase]
  sent := by rw [sent_next_deliver, h.sent]

theorem Asks.conclude (h : course.Asks source) (plan : Plan) (verdict : Except Error UInt16) :
    (course.next plan (.conclude verdict)).Asks (source + 1) where
  phase := by rw [phase_next_conclude, h.phase]
  sent := by rw [sent_next_conclude, h.sent]

theorem Asks.follow_reports (h : course.Asks source) (plan : Plan) (reports : List Report) :
    (plan.machine.follow course (reports.map (.deliver source))).Asks source := by
  induction reports generalizing course with
  | nil => exact h
  | cons report reports ih => exact ih (h.deliver plan source report)

theorem Asks.follow_acts (h : course.Asks source) (plan : Plan) (reaction : Reaction) :
    (plan.machine.follow course (reaction.acts source)).Asks (source + 1) := by
  unfold Reaction.acts
  rw [Machine.follow_append]
  exact (h.follow_reports plan reaction.reports).conclude plan reaction.verdict

theorem Asks.follow_askingActs (h : course.Asks source) (plan : Plan)
    (reactions : List Reaction) :
    (plan.machine.follow course (askingActs source reactions)).Asks
      (source + reactions.length) := by
  induction reactions generalizing course source with
  | nil => exact h
  | cons reaction reactions ih =>
    have hall := ih (h.follow_acts plan reaction)
    unfold askingActs
    rw [Machine.follow_append, List.length_cons, Nat.add_comm reactions.length, ← Nat.add_assoc]
    exact hall

theorem Asks.admits_reports (h : course.Asks source) {plan : Plan} (hlt : source < plan.selected)
    (reports : List Report) : plan.machine.Admits course (reports.map (.deliver source)) := by
  induction reports generalizing course with
  | nil => trivial
  | cons report reports ih =>
    refine ⟨⟨?_, hlt, ?_⟩, ih (h.deliver plan source report)⟩
    . simp [h.phase]
    . exact Nat.le_of_eq h.sent.symm

theorem Asks.admits_acts (h : course.Asks source) {plan : Plan} (hlt : source < plan.selected)
    (reaction : Reaction) : plan.machine.Admits course (reaction.acts source) := by
  have hasks := h.follow_reports plan reaction.reports
  unfold Reaction.acts
  rw [Machine.admits_append_iff]
  refine ⟨h.admits_reports hlt reaction.reports, ⟨hasks.phase, ?_⟩, trivial⟩
  rw [hasks.sent]
  exact hlt

theorem Asks.admits_askingActs (h : course.Asks source) {plan : Plan} {reactions : List Reaction}
    (hroom : source + reactions.length ≤ plan.selected) :
    plan.machine.Admits course (askingActs source reactions) := by
  induction reactions generalizing course source with
  | nil => trivial
  | cons reaction reactions ih =>
    rw [List.length_cons] at hroom
    unfold askingActs
    rw [Machine.admits_append_iff]
    exact ⟨h.admits_acts (by omega) reaction, ih (h.follow_acts plan reaction) (by omega)⟩

theorem now_follow_reports (plan : Plan) (course : Course) (source : Nat) (reports : List Report) :
    (plan.machine.follow course (reports.map (.deliver source))).now = course.now := by
  induction reports generalizing course with
  | nil => rfl
  | cons report reports ih => exact ih (course.next plan (.deliver source report))

theorem now_follow_acts (plan : Plan) (course : Course) (source : Nat) (reaction : Reaction) :
    (plan.machine.follow course (reaction.acts source)).now = course.now := by
  unfold Reaction.acts
  rw [Machine.follow_append]
  exact now_follow_reports plan course source reaction.reports

theorem now_follow_askingActs (plan : Plan) (course : Course) (source : Nat)
    (reactions : List Reaction) :
    (plan.machine.follow course (askingActs source reactions)).now = course.now := by
  induction reactions generalizing course source with
  | nil => rfl
  | cons reaction reactions ih =>
    rw [askingActs, Machine.follow_append, ih, now_follow_acts]

theorem Valid.settled {plan : Plan} (h : course.Valid plan)
    (hphase : course.inquiry.phase = .started) : course.Settled plan :=
  ⟨hphase, h.started hphase⟩

theorem Asks.finish {plan : Plan} (h : course.Asks plan.selected) :
    (course.next plan .finish).Settled plan :=
  ⟨rfl, h.sent⟩

theorem Settled.pass {plan : Plan} (h : course.Settled plan) (time : Nat) :
    (course.next plan (.pass time)).Settled plan :=
  ⟨h.phase, h.sent⟩

theorem Settled.deliver {plan : Plan} (h : course.Settled plan) (source : Nat) (report : Report) :
    (course.next plan (.deliver source report)).Settled plan where
  phase := by rw [phase_next_deliver, h.phase]
  sent := by rw [sent_next_deliver, h.sent]

theorem Settled.enabled_deliver {plan : Plan} (h : course.Settled plan)
    (hlt : source < plan.selected) (report : Report) :
    course.Enabled plan (.deliver source report) :=
  ⟨by simp [h.phase], hlt, by rw [h.sent]; exact Nat.le_of_lt hlt⟩

end Turns

section Replies

theorem repliesOf_next_deliver (plan : Plan) (course : Course) (source other : Nat)
    (report : Report) :
    (course.next plan (.deliver other report)).repliesOf source
      =
    course.repliesOf source ++
      if other = source ∧ course.inquiry.keeps report then [report.reply] else [] := by
  have hown : (Contribution.ofReport course.inquiry other report).filter (·.source == source)
      =
    if other = source then Contribution.ofReport course.inquiry other report else [] := by
    split
    . next h =>
      rw [List.filter_eq_self]
      intro contribution hmem
      simp [source_of_mem_ofReport hmem, h]
    . next h =>
      rw [List.filter_eq_nil_iff]
      intro contribution hmem
      simp [source_of_mem_ofReport hmem, h]
  simp only [repliesOf, next, List.filter_append, List.map_append, hown]
  split
  . next h => simp [map_reply_ofReport, h]
  . next h => simp [h]

theorem repliesOf_next_conclude (plan : Plan) (course : Course) (source : Nat)
    (verdict : Except Error UInt16) :
    (course.next plan (.conclude verdict)).repliesOf source
      =
    course.repliesOf source ++
      if course.inquiry.sent = source then Reaction.refusals verdict else [] := by
  cases verdict with
  | ok id => simp [repliesOf, next, Contribution.ofVerdict, Reaction.refusals]
  | error error =>
    simp only [repliesOf, next, Contribution.ofVerdict, Reaction.refusals, List.filter_append,
      List.map_append]
    split
    . next h => simp [h]
    . next h => simp [h]

theorem repliesOf_follow_reports (plan : Plan) (course : Course) (source other : Nat)
    (reports : List Report) :
    ((plan.machine.follow course (reports.map (.deliver other))).repliesOf source).Sublist
      (course.repliesOf source ++ if other = source then reports.map (·.reply) else []) := by
  induction reports generalizing course with
  | nil => simp
  | cons report reports ih =>
    refine (ih (course.next plan (.deliver other report))).trans ?_
    rw [repliesOf_next_deliver, List.append_assoc]
    apply List.Sublist.append_left
    by_cases hother : other = source
    . simp only [hother, true_and, if_pos, List.map_cons]
      split
      . exact .refl _
      . exact .cons _ (.refl _)
    . simp [hother]

theorem Asks.repliesOf_follow_acts {course : Course} {other : Nat} (h : course.Asks other)
    (plan : Plan) (source : Nat) (reaction : Reaction) :
    ((plan.machine.follow course (reaction.acts other)).repliesOf source).Sublist
      (course.repliesOf source ++ if other = source then reaction.immediate else []) := by
  have hreports := repliesOf_follow_reports plan course source other reaction.reports
  have hasks := h.follow_reports plan reaction.reports
  unfold Reaction.acts
  rw [Machine.follow_append]
  change ((next plan _ (.conclude reaction.verdict)).repliesOf source).Sublist _
  rw [repliesOf_next_conclude, hasks.sent]
  refine (hreports.append_right _).trans ?_
  rw [List.append_assoc]
  apply List.Sublist.append_left
  split
  . exact .refl _
  . exact .refl _

theorem Asks.repliesOf_follow_askingActs {course : Course} {other : Nat} (h : course.Asks other)
    (plan : Plan) (source : Nat) (reactions : List Reaction) :
    ((plan.machine.follow course (askingActs other reactions)).repliesOf source).Sublist
      (course.repliesOf source ++ Reaction.partOf Reaction.immediate other source reactions) := by
  induction reactions generalizing course other with
  | nil => simp [askingActs, Reaction.partOf_nil]
  | cons reaction reactions ih =>
    unfold askingActs
    rw [Machine.follow_append, Reaction.partOf_cons, ← List.append_assoc]
    have hfirst := h.repliesOf_follow_acts plan source reaction
    exact (ih (h.follow_acts plan reaction)).trans (hfirst.append_right _)

end Replies

end Course

end Inquiry

end Zeroconf
