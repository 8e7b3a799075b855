import Zeroconf.Proofs.Reception.Course

/-!
This module contains the course that an inquiry takes while somebody waits for it. Replies come in
in the order in which they are due, until the waiting ends.
-/

namespace Zeroconf

open Inquiry

namespace Reception

def receiveAll (dues : List Due) (reception : Reception) : Reception :=
  dues.foldl (fun reception due => reception.receiveDue due) reception

theorem now_receiveDue (due : Due) (reception : Reception) :
    (reception.receiveDue due).now = max reception.now due.time := by
  simp only [receiveDue, now_deliver]

/--
Waiting lets some replies come in and the time pass, and nothing else. It goes on until there is
what somebody waits for, or until the next reply is due too late.
-/
theorem exists_advance_go_eq {limit : Nat} {done : Reception → Bool} {found : Reception → Prop}
    (hdone : ∀ reception, done reception = true → found reception ∨ limit ≤ reception.now)
    (hfound : ∀ reception upcoming now, found reception → found { reception with upcoming, now })
    (upcoming : List Due) (reception : Reception) :
    ∃ count time, advance.go limit done upcoming reception
      =
    { receiveAll (upcoming.take count) reception with
      upcoming := upcoming.drop count
      now := max (receiveAll (upcoming.take count) reception).now time } ∧
    (found (advance.go limit done upcoming reception) ∨
      ∀ due ∈ (upcoming.drop count).head?, limit ≤ max reception.now due.time) := by
  -- `count` replies come in, and each of them may bring what somebody waits for.
  induction upcoming generalizing reception with
  | nil =>
    unfold advance.go
    split
    . exact ⟨0, reception.now, by simp [receiveAll], .inr (by simp)⟩
    . exact ⟨0, limit, rfl, .inr (by simp)⟩
  | cons due others ih =>
    unfold advance.go
    split
    . next h =>
      refine ⟨0, reception.now, by simp [receiveAll], ?_⟩
      apply (hdone reception h).imp (hfound reception (due :: others) reception.now)
      intro hnow other _
      exact Nat.le_trans hnow (Nat.le_max_left ..)
    . dsimp only
      split
      . next hlt =>
        rcases ih (reception.receiveDue due) with ⟨count, time, heq, hended⟩
        refine ⟨count + 1, time, heq, hended.imp_right ?_⟩
        intro hnext other hmem
        have := hnext other hmem
        rw [now_receiveDue] at this
        omega
      . next hlate =>
        refine ⟨0, limit, rfl, .inr ?_⟩
        intro other hmem
        have : due = other := by simpa using hmem
        subst this
        omega

/--
What happens to the inquiry with the given number when replies come in that are due. Each of them
stands behind the number of the one who has sent it.
-/
def dueActs (number : Nat) (tagged : List (Nat × Due)) : List Act :=
  tagged.flatMap fun (source, due) =>
    .pass due.time :: if due.sink = .inquiry number then [.deliver source due.report] else []

def repliesDue (number source : Nat) (tagged : List (Nat × Due)) : List Reply :=
  (tagged.filter fun (other, due) => other = source ∧ due.sink = .inquiry number).map
    (·.2.report.reply)

theorem dueActs_singleton (number source : Nat) (due : Due) :
    dueActs number [(source, due)]
      =
    .pass due.time :: if due.sink = .inquiry number then [.deliver source due.report] else [] := by
  rw [dueActs, List.flatMap_singleton]

theorem dueActs_cons (number source : Nat) (due : Due) (tagged : List (Nat × Due)) :
    dueActs number ((source, due) :: tagged)
      =
    dueActs number [(source, due)] ++ dueActs number tagged := by
  simp [dueActs]

section Course

variable {plan : Plan} {course : Course} {reception : Reception} {number : Nat}
  {caller : Option Observer}

theorem Holds.receiveDue (h : reception.Holds number caller course) (plan : Plan) (source : Nat)
    (due : Due) :
    (reception.receiveDue due).Holds number caller
      (plan.machine.follow course (dueActs number [(source, due)])) := by
  have hpass := h.pass plan due.time
  unfold Reception.receiveDue
  by_cases hsink : due.sink = .inquiry number
  . rw [dueActs_singleton, if_pos hsink, Course.follow_cons, Course.follow_cons, hsink]
    exact hpass.deliver plan source due.report
  . rw [dueActs_singleton, if_neg hsink, Course.follow_cons]
    exact hpass.deliver_of_ne hsink due.report

theorem Holds.heard_receiveDue (h : reception.Holds number caller course) (plan : Plan)
    (source : Nat) {due : Due} (hsink : due.sink = .inquiry number) :
    (reception.receiveDue due).heard
      =
    reception.heard ++ calls caller (course.kept plan (dueActs number [(source, due)])) := by
  have hpass := h.pass plan due.time
  unfold Reception.receiveDue
  rw [dueActs_singleton, if_pos hsink, hsink]
  simp only [Course.kept_cons, Course.kept_nil, Course.keptBy, List.nil_append, List.append_nil]
  exact hpass.heard_deliver source due.report

theorem Holds.receiveAll (h : reception.Holds number caller course) (plan : Plan)
    (tagged : List (Nat × Due)) :
    (receiveAll (tagged.map Prod.snd) reception).Holds number caller
      (plan.machine.follow course (dueActs number tagged)) := by
  induction tagged generalizing reception course with
  | nil => exact h
  | cons entry tagged ih =>
    rw [dueActs_cons, Machine.follow_append]
    exact ih (h.receiveDue plan entry.1 entry.2)

theorem Holds.heard_receiveAll (h : reception.Holds number caller course) (plan : Plan)
    {tagged : List (Nat × Due)} (hsinks : ∀ entry ∈ tagged, entry.2.sink = .inquiry number) :
    (Reception.receiveAll (tagged.map Prod.snd) reception).heard
      =
    reception.heard ++ calls caller (course.kept plan (dueActs number tagged)) := by
  induction tagged generalizing reception course with
  | nil => simp [Reception.receiveAll, dueActs]
  | cons entry tagged ih =>
    rw [List.forall_mem_cons] at hsinks
    have hothers := ih (h.receiveDue plan entry.1 entry.2) hsinks.2
    rw [h.heard_receiveDue plan entry.1 hsinks.1] at hothers
    rw [dueActs_cons, Course.kept_append, calls_append, ← List.append_assoc]
    exact hothers

/--
Who waits for an inquiry takes it along its course by the replies that come in until then. Each of
them can have been sent by anybody. Only if the inquiry is complete the waiting ends before the next
reply is due too late.
-/
theorem Holds.exists_wait (h : reception.Holds number caller course) (plan : Plan)
    {tagged : List (Nat × Due)} (htagged : tagged.map Prod.snd = reception.upcoming) :
    ∃ front behind time, tagged = front ++ behind ∧
      (reception.wait number).2.Holds number caller
        (plan.machine.follow course (dueActs number front ++ [.pass time])) ∧
      ((∀ entry ∈ tagged, entry.2.sink = .inquiry number) →
        (reception.wait number).2.heard
          =
        reception.heard ++
          calls caller (course.kept plan (dueActs number front ++ [.pass time]))) ∧
      ((plan.machine.follow course
          (dueActs number front ++ [.pass time])).inquiry.hasResults = true ∨
        ∀ entry ∈ behind.head?, course.inquiry.deadline ≤ max course.now entry.2.time) := by
  let complete := fun s : Reception => ∃ case, s.cases[number]? = some case ∧
    case.inquiry.hasResults = true
  have hlook : ∀ s : Reception,
      (Reception.look number course.inquiry.deadline s).isSome = true →
      complete s ∨ course.inquiry.deadline ≤ s.now := by
    intro s hseen
    rcases Option.isSome_iff_exists.mp hseen with ⟨seen, hseen⟩
    rcases Option.bind_eq_some_iff.mp hseen with ⟨case, hcase, hseen⟩
    unfold Inquiry.look at hseen
    split at hseen
    . next hresults => exact .inl ⟨case, hcase, hresults⟩
    . split at hseen
      . next hnow => exact .inr hnow
      . contradiction
  -- The waiting is cut where it ends: these replies come in, and then only the time passes.
  rcases exists_advance_go_eq hlook (fun _ _ _ => id) reception.upcoming reception with
    ⟨count, time, heq, hended⟩
  have hwait : (reception.wait number).2
      =
    advance.go course.inquiry.deadline
      (fun s => (Reception.look number course.inquiry.deadline s).isSome) reception.upcoming
      reception := by
    simp only [Reception.wait, h.case, advance]
  rw [← hwait] at heq hended
  rw [← htagged, ← List.map_take] at heq
  have hholds : (reception.wait number).2.Holds number caller
      (plan.machine.follow course (dueActs number (tagged.take count) ++ [.pass time])) := by
    have hpass := (h.receiveAll plan (tagged.take count)).pass plan time
    rw [Machine.follow_append, heq]
    exact ⟨hpass.case, hpass.now⟩
  refine ⟨tagged.take count, tagged.drop count, time, (List.take_append_drop ..).symm, hholds, ?_,
    ?_⟩
  . intro hsinks
    have htaken : ∀ entry ∈ tagged.take count, entry.2.sink = .inquiry number := by
      intro entry hmem
      exact hsinks entry (List.mem_of_mem_take hmem)
    have hheard := h.heard_receiveAll plan htaken
    rw [heq]
    simp only [Course.kept_append, Course.kept_cons, Course.kept_nil, Course.keptBy,
      List.append_nil]
    exact hheard
  . apply hended.imp
    . rintro ⟨case, hcase, hresults⟩
      rw [hholds.case, Option.some.injEq] at hcase
      subst hcase
      exact hresults
    . intro hnext entry hmem
      rw [← htagged, ← List.map_drop, List.head?_map, h.now] at hnext
      exact hnext entry.2 (Option.mem_map_of_mem Prod.snd hmem)

theorem admits_dueActs (h : course.Settled plan) {tagged : List (Nat × Due)}
    (hsources : ∀ entry ∈ tagged, entry.2.sink = .inquiry number → entry.1 < plan.selected) :
    plan.machine.Admits course (dueActs number tagged) ∧
      (plan.machine.follow course (dueActs number tagged)).Settled plan := by
  induction tagged generalizing course with
  | nil => exact ⟨trivial, h⟩
  | cons entry tagged ih =>
    rw [List.forall_mem_cons] at hsources
    rw [dueActs_cons, Machine.admits_append_iff, Machine.follow_append, dueActs_singleton]
    have hpass := h.pass entry.2.time
    by_cases hsink : entry.2.sink = .inquiry number
    . rw [if_pos hsink, Course.follow_cons, Course.follow_cons, Machine.follow_nil]
      have henabled := hpass.enabled_deliver (hsources.1 hsink) entry.2.report
      rcases ih (hpass.deliver entry.1 entry.2.report) hsources.2 with ⟨hadmits, hsettled⟩
      exact ⟨⟨⟨trivial, henabled, trivial⟩, hadmits⟩, hsettled⟩
    . rw [if_neg hsink, Course.follow_cons, Machine.follow_nil]
      rcases ih hpass hsources.2 with ⟨hadmits, hsettled⟩
      exact ⟨⟨⟨trivial, trivial⟩, hadmits⟩, hsettled⟩

theorem Holds.exists_wait_admits (h : reception.Holds number caller course)
    (hsettled : course.Settled plan) :
    ∃ front behind time, front ++ behind = reception.upcoming ∧
      let acts := dueActs number (front.map (0, ·)) ++ [.pass time]
      plan.machine.Admits course acts ∧
      (reception.wait number).2.Holds number caller (plan.machine.follow course acts) ∧
      (plan.machine.follow course acts).Settled plan ∧
      ((plan.machine.follow course acts).inquiry.hasResults = true ∨
        ∀ due ∈ behind.head?, course.inquiry.deadline ≤ max course.now due.time) := by
  by_cases hselected : 0 < plan.selected
  . -- It is not known who sent the replies that are due; any of those who were asked will do.
    have htagged : (reception.upcoming.map (0, ·)).map Prod.snd = reception.upcoming := by
      simp [Function.comp_def]
    rcases h.exists_wait plan htagged with ⟨front, behind, time, hsplit, hwait, -, hended⟩
    rcases List.map_eq_append_iff.mp hsplit with ⟨taken, left, hupcoming, rfl, rfl⟩
    have hsources : ∀ entry ∈ taken.map (Prod.mk 0), entry.2.sink = .inquiry number →
        entry.1 < plan.selected := by
      intro entry hmem _
      rcases List.mem_map.mp hmem with ⟨due, -, rfl⟩
      exact hselected
    rcases admits_dueActs hsettled hsources with ⟨hadmits, hlater⟩
    refine ⟨taken, left, time, hupcoming.symm, ?_, hwait, ?_, hended.imp_right ?_⟩
    . rw [Machine.admits_append_iff]
      exact ⟨hadmits, trivial, trivial⟩
    . rw [Machine.follow_append]
      exact hlater.pass time
    . intro hnext due hmem
      rw [List.head?_map] at hnext
      exact hnext (0, due) (Option.mem_map_of_mem _ hmem)
  . -- Nobody was asked, and there is nothing to wait for.
    have hresults : course.inquiry.hasResults = true := by
      have := hsettled.sent
      exact hasResults_iff.mpr ⟨hsettled.phase, by omega⟩
    have hseen : reception.look number course.inquiry.deadline = some true := by
      rw [h.look, Inquiry.look, if_pos hresults]
    refine ⟨[], reception.upcoming, course.now, rfl, ⟨trivial, trivial⟩, ?_, hsettled.pass _,
      .inl hresults⟩
    simp only [Reception.wait, h.case, advance]
    unfold advance.go
    simp only [hseen, Option.isSome_some, if_true]
    exact ⟨h.case, h.now.trans (Nat.max_self _).symm⟩

theorem Holds.wait (h : reception.Holds number caller course) (hvalid : course.Valid plan)
    (hphase : course.inquiry.phase = .started) :
    ∃ later, plan.Run course later ∧ (reception.wait number).2.Holds number caller later ∧
      later.inquiry.phase = .started := by
  rcases h.exists_wait_admits (hvalid.settled hphase) with
    ⟨front, behind, time, -, hadmits, hwait, hlater, -⟩
  exact ⟨_, .follow hadmits, hwait, hlater.phase⟩

theorem repliesDue_cons (number source : Nat) (entry : Nat × Due) (tagged : List (Nat × Due)) :
    repliesDue number source (entry :: tagged)
      =
    (if entry.1 = source ∧ entry.2.sink = .inquiry number then [entry.2.report.reply] else []) ++
      repliesDue number source tagged := by
  unfold repliesDue
  rw [List.filter_cons]
  simp only [decide_eq_true_eq]
  split <;> simp

theorem repliesOf_follow_dueActs (plan : Plan) (course : Course) (number source : Nat)
    (tagged : List (Nat × Due)) :
    ((plan.machine.follow course (dueActs number tagged)).repliesOf source).Sublist
      (course.repliesOf source ++ repliesDue number source tagged) := by
  induction tagged generalizing course with
  | nil => simp [dueActs, repliesDue]
  | cons entry tagged ih =>
    rw [dueActs_cons, Machine.follow_append, repliesDue_cons, ← List.append_assoc]
    refine (ih _).trans (List.Sublist.append_right ?_ _)
    rw [dueActs_singleton]
    by_cases hsink : entry.2.sink = .inquiry number
    . rw [if_pos hsink, Course.follow_cons, Course.follow_cons, Machine.follow_nil,
        Course.repliesOf_next_deliver]
      apply List.Sublist.append_left
      by_cases hsource : entry.1 = source
      . simp only [hsource, hsink, true_and, and_self, if_pos]
        split
        . exact .refl _
        . exact List.nil_sublist _
      . simp [hsource]
    . rw [if_neg hsink, Course.follow_cons, Machine.follow_nil]
      exact List.sublist_append_left ..

end Course

end Reception

end Zeroconf
