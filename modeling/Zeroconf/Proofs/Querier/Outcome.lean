import Mathlib.Data.List.Forall2
import Zeroconf.Proofs.Querier.Start

/-!
This module contains the proof that a querier puts on record what its peers yield and nothing else:
of each peer at most its own outcomes, no matter which replies come in while somebody waits.
-/

namespace Zeroconf

open Inquiry

namespace Reception

/--
What is on its way after all were asked at a time, each reply behind the number of the one who has
sent it. The first one has the number `source`.
-/
def duesFrom (now : Nat) (sink : Sink) (source : Nat) : List Reaction → List (Nat × Due)
  | [] => []
  | reaction :: reactions =>
    (reaction.dues now sink).map (source, ·) ++ duesFrom now sink (source + 1) reactions

theorem map_snd_duesFrom (now : Nat) (sink : Sink) (source : Nat) (reactions : List Reaction) :
    (duesFrom now sink source reactions).map Prod.snd
      =
    reactions.flatMap (·.dues now sink) := by
  induction reactions generalizing source with
  | nil => rfl
  | cons reaction reactions ih => simp [duesFrom, ih, Function.comp_def]

theorem sink_of_mem_dues {now : Nat} {sink : Sink} {reaction : Reaction} {due : Due}
    (h : due ∈ reaction.dues now sink) : due.sink = sink := by
  rcases List.mem_map.mp h with ⟨later, -, rfl⟩
  rfl

theorem of_mem_duesFrom {now : Nat} {sink : Sink} {source : Nat} {reactions : List Reaction}
    {entry : Nat × Due} (h : entry ∈ duesFrom now sink source reactions) :
    entry.1 < source + reactions.length ∧ entry.2.sink = sink := by
  induction reactions generalizing source with
  | nil => contradiction
  | cons reaction reactions ih =>
    rw [duesFrom, List.mem_append, List.mem_map] at h
    rw [List.length_cons]
    rcases h with ⟨due, hmem, rfl⟩ | h
    . dsimp only
      exact ⟨by omega, sink_of_mem_dues hmem⟩
    . rcases ih h with ⟨hlt, hsink⟩
      exact ⟨by omega, hsink⟩

theorem repliesDue_append (number source : Nat) (front behind : List (Nat × Due)) :
    repliesDue number source (front ++ behind)
      =
    repliesDue number source front ++ repliesDue number source behind := by
  simp [repliesDue]

theorem repliesDue_of_forall_ne {number : Nat} (source : Nat) {tagged : List (Nat × Due)}
    (h : ∀ entry ∈ tagged, entry.2.sink ≠ .inquiry number) :
    repliesDue number source tagged = [] := by
  unfold repliesDue
  rw [List.map_eq_nil_iff, List.filter_eq_nil_iff]
  intro entry hmem
  simp [h entry hmem]

theorem repliesDue_dues (number source other now : Nat) (reaction : Reaction) :
    repliesDue number source ((reaction.dues now (.inquiry number)).map (other, ·))
      =
    if other = source then reaction.later.map (·.2.reply) else [] := by
  simp only [repliesDue, Reaction.dues, List.filter_map, List.map_map]
  split
  . next h => simp [h, Function.comp_def]
  . next h => simp [h, Function.comp_def]

theorem repliesDue_duesFrom (number source other now : Nat) (reactions : List Reaction) :
    repliesDue number source (duesFrom now (.inquiry number) other reactions)
      =
    Reaction.partOf (·.later.map (·.2.reply)) other source reactions := by
  induction reactions generalizing other with
  | nil => simp [duesFrom, repliesDue, Reaction.partOf_nil]
  | cons reaction reactions ih =>
    rw [duesFrom, repliesDue_append, repliesDue_dues, ih, Reaction.partOf_cons]

/--
All that is on its way when all have been asked. Who has sent what was on its way before is unknown.
-/
def tagged (known : List Due) (now : Nat) (sink : Sink) (reactions : List Reaction) :
    List (Nat × Due) :=
  known.map (0, ·) ++ duesFrom now sink 0 reactions

theorem map_snd_tagged (known : List Due) (now : Nat) (sink : Sink) (reactions : List Reaction) :
    (tagged known now sink reactions).map Prod.snd
      =
    known ++ reactions.flatMap (·.dues now sink) := by
  simp [tagged, map_snd_duesFrom, Function.comp_def]

theorem of_mem_tagged {known : List Due} {now number : Nat} {reactions : List Reaction}
    (hfresh : ∀ due ∈ known, due.sink ≠ .inquiry number) {entry : Nat × Due}
    (h : entry ∈ tagged known now (.inquiry number) reactions)
    (hsink : entry.2.sink = .inquiry number) : entry.1 < reactions.length := by
  rw [tagged, List.mem_append, List.mem_map] at h
  rcases h with ⟨due, hmem, rfl⟩ | h
  . exact absurd hsink (hfresh due hmem)
  . have := (of_mem_duesFrom h).1
    omega

theorem repliesDue_tagged {known : List Due} {now number : Nat}
    (hfresh : ∀ due ∈ known, due.sink ≠ .inquiry number) (source : Nat)
    (reactions : List Reaction) :
    repliesDue number source (tagged known now (.inquiry number) reactions)
      =
    ((reactions[source]?).map (·.later.map (·.2.reply))).getD [] := by
  have hknown : repliesDue number source (known.map (0, ·)) = [] := by
    apply repliesDue_of_forall_ne
    intro entry hmem
    rcases List.mem_map.mp hmem with ⟨due, hdue, rfl⟩
    exact hfresh due hdue
  rw [tagged, repliesDue_append, hknown, repliesDue_duesFrom, Reaction.partOf_zero, List.nil_append]

theorem exists_tagged_perm {upcoming : List Due} {tagged : List (Nat × Due)}
    (h : upcoming.Perm (tagged.map Prod.snd)) :
    ∃ ordered : List (Nat × Due), ordered.map Prod.snd = upcoming ∧ ordered.Perm tagged := by
  -- Replies keep their senders in whichever order they are due.
  have hsnd : List.Forall₂ (fun due entry => due = entry.2) (tagged.map Prod.snd) tagged := by
    rw [List.forall₂_map_left_iff, List.forall₂_same]
    exact fun _ _ => rfl
  rcases List.perm_comp_forall₂ h hsnd with ⟨ordered, hordered, hperm⟩
  have heq : List.Forall₂ Eq upcoming (ordered.map Prod.snd) :=
    List.forall₂_map_right_iff.mpr hordered
  rw [List.forall₂_eq_eq_eq] at heq
  exact ⟨ordered, heq.symm, hperm⟩

theorem Holds.answer {reception : Reception} {number : Nat} {caller : Option Observer}
    {course : Course} (h : (reception.wait number).2.Holds number caller course) :
    (reception.answer number).1 = course.inquiry.answer := by
  simp only [Reception.answer, h.case]

end Reception

namespace Querier

variable {P U : Type} [Peer P] [Peer U]

theorem repliesOf_follow_sending (querier : Querier P U) (query : Message) (sink : Sink)
    (now source : Nat) :
    let plan := querier.plan query
    let reactions := querier.reactions query sink
    ((plan.machine.follow (Course.initial plan now) (sending reactions)).repliesOf source).Sublist
      (((reactions[source]?).map (·.immediate)).getD []) := by
  intro plan reactions
  have hasks : ((Course.initial plan now).next plan .start).Asks 0 := .start plan rfl rfl
  have hreplies := hasks.repliesOf_follow_askingActs plan source reactions
  rw [Reaction.partOf_zero] at hreplies
  simp only [sending]
  rw [Course.follow_cons, Machine.follow_append]
  exact hreplies

theorem repliesOf_follow (querier : Querier P U) (query : Message) {number : Nat}
    (hfresh : ∀ due ∈ querier.reception.upcoming, due.sink ≠ .inquiry number)
    {front behind : List (Nat × Reception.Due)}
    (hperm : (front ++ behind).Perm (Reception.tagged querier.reception.upcoming
      querier.reception.now (.inquiry number) (querier.reactions query (.inquiry number))))
    (source : Nat) :
    let plan := querier.plan query
    let reactions := querier.reactions query (.inquiry number)
    let sent := plan.machine.follow (Course.initial plan querier.reception.now) (sending reactions)
    ((plan.machine.follow sent (Reception.dueActs number front)).repliesOf source).Subperm
      (((reactions[source]?).map (·.outcomes)).getD []) := by
  intro plan reactions sent
  have hlater : (Reception.repliesDue number source (front ++ behind)).Perm
      (((reactions[source]?).map (·.later.map (·.2.reply))).getD []) := by
    rw [← Reception.repliesDue_tagged hfresh]
    exact (hperm.filter _).map _
  have houtcomes : ((reactions[source]?).map (·.outcomes)).getD []
      =
    ((reactions[source]?).map (·.immediate)).getD [] ++
      ((reactions[source]?).map (·.later.map (·.2.reply))).getD [] := by
    cases reactions[source]? <;> rfl
  rw [houtcomes]
  have hfront : (Reception.repliesDue number source front).Sublist
      (Reception.repliesDue number source (front ++ behind)) := by
    rw [Reception.repliesDue_append]
    exact List.sublist_append_left ..
  have hsent := querier.repliesOf_follow_sending query (.inquiry number) querier.reception.now
    source
  have hdue := Reception.repliesOf_follow_dueActs plan sent number source front
  exact (hdue.trans (hsent.append hfront)).subperm.trans (hlater.append_left _).subperm

/--
A querier that sends a query and waits for it puts of each peer on record what the peer yields, as
far as it belongs to the query and comes in until then.
-/
theorem resolve_wait (querier : Querier P U) (query : Message) (caller : Option Observer)
    (hopen : querier.closed = false)
    (hfresh : ∀ due ∈ querier.reception.upcoming,
      due.sink ≠ .inquiry querier.reception.cases.length) :
    let number := querier.reception.cases.length
    let plan := querier.plan query
    let reactions := querier.reactions query (.inquiry number)
    let initial := Course.initial plan querier.reception.now
    let resolved := (querier.resolve query caller).2.reception
    ∃ acts, plan.machine.Admits initial acts ∧ (plan.machine.follow initial acts).Settled plan ∧
      (resolved.wait number).2.Holds number caller (plan.machine.follow initial acts) ∧
      (∀ source, ((plan.machine.follow initial acts).repliesOf source).Subperm
        (((reactions[source]?).map (·.outcomes)).getD [])) ∧
      (querier.reception.upcoming = [] →
        (resolved.wait number).2.heard
          =
        querier.reception.heard ++ Reception.calls caller (initial.kept plan acts)) := by
  intro number plan reactions initial resolved
  have hperforms : Reception.Performs plan number caller initial (sending reactions) _
    querier.reception resolved := (querier.resolve_performs query caller hopen).2
  have hsending := querier.admits_sending query (.inquiry number) querier.reception.now
  let tagged := Reception.tagged querier.reception.upcoming querier.reception.now
    (.inquiry number) reactions
  have hupcoming : resolved.upcoming.Perm (tagged.map Prod.snd) := by
    rw [Reception.map_snd_tagged]
    exact hperforms.upcoming
  rcases Reception.exists_tagged_perm hupcoming with ⟨ordered, hordered, hperm⟩
  rcases hperforms.holds.exists_wait plan hordered with ⟨front, behind, time, rfl, hwait, hheard, -⟩
  -- What was on its way before is for others, as the number of the inquiry is new.
  have hsources : ∀ entry ∈ front, entry.2.sink = .inquiry number → entry.1 < plan.selected := by
    intro entry hmem hsink
    have htagged := hperm.mem_iff.mp (List.mem_append_left behind hmem)
    rw [← querier.length_reactions query (.inquiry number)]
    exact Reception.of_mem_tagged hfresh htagged hsink
  rcases Reception.admits_dueActs hsending.2 hsources with ⟨hadmits, hsettled⟩
  refine ⟨sending reactions ++ (Reception.dueActs number front ++ [.pass time]), ?_, ?_, ?_, ?_, ?_⟩
  . rw [Machine.admits_append_iff, Machine.admits_append_iff]
    exact ⟨hsending.1, hadmits, trivial, trivial⟩
  . rw [Machine.follow_append, Machine.follow_append]
    exact hsettled.pass time
  . rw [Machine.follow_append]
    exact hwait
  . intro source
    rw [Machine.follow_append, Machine.follow_append]
    exact querier.repliesOf_follow query hfresh hperm source
  . intro hnone
    have hsinks : ∀ entry ∈ front ++ behind, entry.2.sink = .inquiry number := by
      intro entry hmem
      have htagged : entry ∈ tagged := hperm.mem_iff.mp hmem
      simp only [tagged, Reception.tagged, hnone, List.map_nil, List.nil_append] at htagged
      exact (Reception.of_mem_duesFrom htagged).2
    rw [hheard hsinks, hperforms.heard, Course.kept_append plan initial, Reception.calls_append,
      List.append_assoc]

end Querier

end Zeroconf
