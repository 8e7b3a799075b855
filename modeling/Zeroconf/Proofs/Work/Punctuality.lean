import Mathlib.Algebra.Ring.Nat
import Zeroconf.Proofs.Work.Timekeeper

/-!
This module contains what holds of timetables on all their runs: when tasks are handed over and how
often, that nothing comes of a task after it was cancelled or of any task after the end, and that
nothing else keeps a task from being handed over.
-/

namespace Zeroconf.Work

open Timetable (Entry)

namespace Timekeeper

variable {τ : Type} {keeper : Timekeeper τ} {start : Nat} {acts : List (Act τ)}

/--
Whether only runs that were handed over were started, and none of them twice.
-/
def Started (keeper : Timekeeper τ) : Prop :=
  (keeper.carried ++ keeper.waiting).Subperm (keeper.handed.map (·.entry))

theorem Started.next (h : keeper.Started) {act : Act τ} (henabled : keeper.Enabled act) :
    (keeper.next act).Started := by
  cases act with
  | put =>
    rw [next_put]
    split
    . exact h
    . exact h
  | tick =>
    rcases keeper.exists_looks with ⟨handed, timetable, -, heq⟩
    rw [heq]
    have hmap : (handed.toList.map (Run.mk keeper.now)).map (·.entry) = handed.toList := by
      simp [Function.comp_def]
    simp only [Started, look, List.map_append, hmap, ← List.append_assoc]
    exact (List.subperm_append_right _).mpr h
  | start place =>
    have hplace : place < keeper.waiting.length := henabled
    apply List.Subperm.trans _ h
    simp only [Timekeeper.next, List.getElem?_eq_getElem hplace, List.append_assoc]
    apply (List.subperm_append_left _).mpr
    -- The entry at the place is gone from those that wait, and may be among the carried out.
    apply List.Subperm.trans _ (List.getElem_cons_eraseIdx_perm hplace).subperm
    have hstarted : ((some keeper.waiting[place]).filter keeper.timetable.carriesOut).toList.Sublist
        [keeper.waiting[place]] := by
      cases hcarries : keeper.timetable.carriesOut keeper.waiting[place] <;> simp [hcarries]
    exact (hstarted.append_right _).subperm
  | _ => exact h

section Cancelled

variable {sequence : Nat}

theorem isCancelled_next_iff {act : Act τ} :
    (keeper.next act).timetable.isCancelled sequence = true
      ↔
    keeper.timetable.isCancelled sequence = true ∨ act = .cancel sequence := by
  cases act with
  | put =>
    rw [next_put]
    split <;> simp [insert, register, Timetable.isCancelled]
  | cancel other =>
    simp [next, Timetable.cancel, Timetable.isCancelled, @eq_comm _ sequence other]
  | tick =>
    rcases keeper.exists_looks with ⟨handed, timetable, hlooks, heq⟩
    rw [heq]
    simp [look, hlooks.isCancelled_eq]
  | _ => simp [next, Timetable.isCancelled, Timetable.shutdown]

theorem isCancelled_after_iff :
    (after start acts).timetable.isCancelled sequence = true ↔ .cancel sequence ∈ acts := by
  induction acts using List.reverseRecOn with
  | nil => simp [after, Machine.follow, initial, Timetable.isCancelled]
  | append_singleton acts act ih =>
    rw [after_concat, isCancelled_next_iff, ih, List.mem_append, List.mem_singleton,
      eq_comm (a := act)]

theorem runsOf_next (hcancelled : keeper.timetable.isCancelled sequence = true) (act : Act τ) :
    (keeper.next act).runsOf sequence = keeper.runsOf sequence := by
  cases act with
  | put =>
    rw [next_put]
    split <;> rfl
  | tick =>
    rcases keeper.exists_looks with ⟨handed, timetable, hlooks, heq⟩
    rw [heq]
    cases handed with
    | none => simp [runsOf, look]
    | some entry =>
      have hother : entry.sequence ≠ sequence := by
        rintro rfl
        rw [hlooks.isCancelled_handed] at hcancelled
        contradiction
      simp [runsOf, look, hother]
  | _ => rfl

theorem carriedOf_next (hcancelled : keeper.timetable.isCancelled sequence = true) (act : Act τ) :
    (keeper.next act).carriedOf sequence = keeper.carriedOf sequence := by
  cases act with
  | put =>
    rw [next_put]
    split <;> rfl
  | start place =>
    simp only [carriedOf, next, List.filter_append, List.append_right_eq_self,
      List.filter_eq_nil_iff]
    intro entry hmem hsequence
    rw [Option.mem_toList, Option.filter_eq_some_iff, Timetable.carriesOut, eq_of_beq hsequence,
      hcancelled] at hmem
    exact absurd hmem.2 (by simp)
  | _ => rfl

end Cancelled

/--
What an act brings about and no act changes holds ever after.
-/
theorem holds_since {P : Timekeeper τ → Prop} {front behind : List (Act τ)} {act : Act τ}
    (hact : P ((after start front).next act))
    (hnext : ∀ keeper act, P keeper → P (keeper.next act)) :
    P (after start (front ++ act :: behind)) := by
  rw [after_append]
  exact List.foldlRecOn behind _ hact fun keeper h act _ => hnext keeper act h

theorem since_cancel (front behind : List (Act τ)) (sequence : Nat) :
    (after start (front ++ .cancel sequence :: behind)).runsOf sequence
        = (after start front).runsOf sequence ∧
      (after start (front ++ .cancel sequence :: behind)).carriedOf sequence
        = (after start front).carriedOf sequence := by
  let P (keeper : Timekeeper τ) : Prop :=
    keeper.timetable.isCancelled sequence = true ∧
      keeper.runsOf sequence = (after start front).runsOf sequence ∧
      keeper.carriedOf sequence = (after start front).carriedOf sequence
  have hsince : P (after start (front ++ .cancel sequence :: behind)) := by
    apply holds_since
    . exact ⟨isCancelled_next_iff.mpr (.inr rfl), rfl, rfl⟩
    . rintro keeper act ⟨hcancelled, hruns, hcarried⟩
      refine ⟨isCancelled_next_iff.mpr (.inl hcancelled), ?_, ?_⟩
      . rw [runsOf_next hcancelled, hruns]
      . rw [carriedOf_next hcancelled, hcarried]
  exact hsince.2

theorem since_shutdown (front behind : List (Act τ)) :
    (after start (front ++ .shutdown :: behind)).handed = (after start front).handed := by
  let P (keeper : Timekeeper τ) : Prop :=
    keeper.timetable.entries = [] ∧ keeper.timetable.closed = true ∧
      keeper.handed = (after start front).handed
  have hsince : P (after start (front ++ .shutdown :: behind)) := by
    apply holds_since
    . exact ⟨rfl, rfl, rfl⟩
    . rintro keeper act ⟨hentries, hclosed, hhanded⟩
      cases act with
      | put =>
        rw [next_put, if_pos hclosed]
        exact ⟨hentries, hclosed, hhanded⟩
      | tick => simp [P, next, look, Timetable.tick, hentries, hclosed, hhanded]
      | close => exact ⟨hentries, rfl, hhanded⟩
      | shutdown => exact ⟨rfl, rfl, hhanded⟩
      | _ => exact ⟨hentries, hclosed, hhanded⟩
  exact hsince.2.2

theorem orderly_after (hadmits : machine.Admits (initial τ start) acts) :
    (after start acts).Orderly :=
  Machine.keeps (fun _ _ h henabled => h.next henabled) (orderly_initial start) hadmits

theorem started_after (hadmits : machine.Admits (initial τ start) acts) :
    (after start acts).Started :=
  Machine.keeps (fun _ _ h henabled => h.next henabled) (List.Subperm.refl _) hadmits

/--
Whether a task that was put down as `first` is still on the timetable, or was handed over and is
there again if it is to be repeated.
-/
def Kept (keeper : Timekeeper τ) (first : Entry τ) : Prop :=
  first ∈ keeper.timetable.entries ∨
    (∃ time, ⟨time, first⟩ ∈ keeper.handed) ∧
      (first.period ≠ none → ∃ entry ∈ keeper.timetable.entries, entry.sequence = first.sequence)

theorem Kept.insert {first : Entry τ} (h : keeper.Kept first) (entry : Entry τ) :
    (keeper.insert entry).Kept first := by
  rcases h with hmem | ⟨hhanded, hagain⟩
  . exact .inl (Timetable.mem_insert.mpr (.inr hmem))
  . refine .inr ⟨hhanded, ?_⟩
    intro hperiod
    rcases hagain hperiod with ⟨other, hmem, hsequence⟩
    exact ⟨other, Timetable.mem_insert.mpr (.inr hmem), hsequence⟩

theorem Kept.look {first : Entry τ} (h : keeper.Kept first) (hordered : keeper.Orderly)
    (hfirst : first ∈ keeper.orders)
    (hcancelled : keeper.timetable.isCancelled first.sequence = false)
    {handed : Option (Entry τ)} {timetable : Timetable τ}
    (hlooks : keeper.timetable.Looks keeper.now handed timetable) :
    (keeper.look handed timetable).Kept first := by
  rcases h with hmem | ⟨⟨time, hhanded⟩, hagain⟩
  . rcases hlooks.mem_or_handed hmem hcancelled with hmem | ⟨rfl, hagain⟩
    . exact .inl hmem
    . refine .inr ⟨⟨keeper.now, by simp [Timekeeper.look]⟩, ?_⟩
      intro hperiod
      rcases Option.ne_none_iff_exists'.mp hperiod with ⟨period, hperiod⟩
      exact ⟨_, hagain period hperiod, rfl⟩
  . refine .inr ⟨⟨time, List.mem_append_left _ hhanded⟩, ?_⟩
    intro hperiod
    rcases hagain hperiod with ⟨entry, hmem, hsequence⟩
    rw [← hsequence] at hcancelled
    rcases hlooks.mem_or_handed hmem hcancelled with hmem | ⟨-, hagain⟩
    . exact ⟨entry, hmem, hsequence⟩
    . -- The entry is one of the same task, so that it is repeated as well.
      have hrun := hordered.isRunOf hfirst (List.mem_append_right _ hmem) hsequence
      rw [← hrun.period] at hperiod
      rcases Option.ne_none_iff_exists'.mp hperiod with ⟨period, hperiod⟩
      exact ⟨_, hagain period hperiod, hsequence⟩

theorem Kept.next {first : Entry τ} (h : keeper.Kept first) (hordered : keeper.Orderly)
    (hfirst : first ∈ keeper.orders)
    (hcancelled : keeper.timetable.isCancelled first.sequence = false) {act : Act τ}
    (hact : act ≠ .shutdown) : (keeper.next act).Kept first := by
  cases act with
  | put =>
    rw [next_put]
    split
    . exact h
    . exact Kept.insert h _
  | tick =>
    rcases keeper.exists_looks with ⟨handed, timetable, hlooks, heq⟩
    rw [heq]
    exact h.look hordered hfirst hcancelled hlooks
  | shutdown => contradiction
  | _ => exact h

theorem mem_orders_next {first : Entry τ} {act : Act τ} (h : first ∈ (keeper.next act).orders) :
    first ∈ keeper.orders ∨ first ∈ (keeper.next act).timetable.entries := by
  cases act with
  | put =>
    rw [next_put] at *
    split at h
    . exact .inl h
    . next hclosed =>
      rw [if_neg hclosed]
      apply (List.mem_append.mp h).imp_right
      intro hmem
      exact Timetable.mem_insert.mpr (.inl (List.mem_singleton.mp hmem))
  | _ => exact .inl h

theorem kept_after (hadmits : machine.Admits (initial τ start) acts) (hshutdown : .shutdown ∉ acts)
    {first : Entry τ} (hfirst : first ∈ (after start acts).orders)
    (hcancel : .cancel first.sequence ∉ acts) : (after start acts).Kept first := by
  induction acts using List.reverseRecOn with
  | nil => simp [after, Machine.follow, initial] at hfirst
  | append_singleton acts act ih =>
    rw [Machine.admits_append_iff] at hadmits
    rw [List.mem_append, List.mem_singleton, not_or] at hshutdown hcancel
    rw [after_concat] at *
    rcases mem_orders_next hfirst with hbefore | hmem
    . have hkept := ih hadmits.1 hshutdown.1 hbefore hcancel.1
      apply hkept.next (orderly_after hadmits.1) hbefore _ (Ne.symm hshutdown.2)
      rw [← Bool.not_eq_true, isCancelled_after_iff]
      exact hcancel.1
    . exact .inl hmem

/--
How often an entry is looked at if no time passes: an entry that is late comes back once at most.
-/
def looksAt (now : Nat) (entry : Entry τ) : Nat :=
  if entry.due < now then 2 else if entry.due = now then 1 else 0

theorem looksAt_again_lt {now period : Nat} {entry : Entry τ} (hdue : entry.due ≤ now)
    (hpos : 0 < period) : looksAt now (entry.again now period) < looksAt now entry := by
  have hlater := entry.due_add_le_again now period
  have hnow := entry.le_due_again now period
  unfold looksAt
  split_ifs <;> omega

def looksLeft (keeper : Timekeeper τ) : Nat :=
  (keeper.timetable.entries.map (looksAt keeper.now)).sum

theorem looksAt_pos {now : Nat} {entry : Entry τ} (hdue : entry.due ≤ now) :
    0 < looksAt now entry := by
  unfold looksAt
  split_ifs <;> omega

theorem looksLeft_tick_lt (h : keeper.Orderly) {entry : Entry τ}
    (hmem : entry ∈ keeper.timetable.entries) (hdue : entry.due ≤ keeper.now) :
    (keeper.next .tick).looksLeft < keeper.looksLeft := by
  rcases keeper.exists_looks with ⟨handed, timetable, hlooks, heq⟩
  rw [heq]
  cases hlooks with
  | early hearly =>
    rcases List.exists_cons_of_ne_nil (List.ne_nil_of_mem hmem) with ⟨head, others, hentries⟩
    have hhead := hearly head (by rw [hentries]; rfl)
    have hle := h.head_due_le hentries hmem
    omega
  | dropped hentries hhead =>
    have hpos := looksAt_pos hhead
    simp only [looksLeft, look, hentries, List.map_cons, List.sum_cons]
    omega
  | once hentries hhead =>
    have hpos := looksAt_pos hhead
    simp only [looksLeft, look, hentries, List.map_cons, List.sum_cons]
    omega
  | @again head others period hentries hhead _ hperiod =>
    have hcourse : head ∈ keeper.course := by simp [course, hentries]
    have hlt := looksAt_again_lt hhead (h.course_period_pos hcourse hperiod)
    have hperm := Timetable.perm_insert (head.again keeper.now period) others
    simp only [looksLeft, look, hentries, (hperm.map _).sum_nat, List.map_cons, List.sum_cons]
    omega

def HandedOver (keeper : Timekeeper τ) (time : Nat) (entry : Entry τ) : Prop :=
  ⟨time, entry⟩ ∈ keeper.handed ∧ entry ∈ keeper.waiting

/--
Whether an entry that nobody has cancelled is due at a moment, or was handed over at that moment.
-/
structure Awaits (keeper : Timekeeper τ) (now : Nat) (entry : Entry τ) : Prop where
  orderly : keeper.Orderly
  now_eq : keeper.now = now
  due : entry.due ≤ now
  active : keeper.timetable.isCancelled entry.sequence = false
  place : entry ∈ keeper.timetable.entries ∨ keeper.HandedOver now entry

theorem Awaits.tick {now : Nat} {entry : Entry τ} (h : keeper.Awaits now entry) :
    (keeper.next .tick).Awaits now entry := by
  have horderly : (keeper.next .tick).Orderly := h.orderly.next trivial
  rcases keeper.exists_looks with ⟨handed, timetable, hlooks, heq⟩
  rw [heq] at horderly ⊢
  refine ⟨horderly, h.now_eq, h.due, ?_, ?_⟩
  . simp only [look, hlooks.isCancelled_eq]
    exact h.active
  . rcases h.place with hmem | ⟨hhanded, hwaiting⟩
    . apply (hlooks.mem_or_handed hmem h.active).imp_right
      rintro ⟨rfl, -⟩
      simp [HandedOver, look, h.now_eq]
    . exact .inr ⟨List.mem_append_left _ hhanded, List.mem_append_left _ hwaiting⟩

theorem Awaits.exists_handedOver {now : Nat} {entry : Entry τ} (h : keeper.Awaits now entry) :
    ∃ ticks : List (Act τ), (∀ act ∈ ticks, act = .tick) ∧ machine.Admits keeper ticks ∧
      (machine.follow keeper ticks).Awaits now entry ∧
      (machine.follow keeper ticks).HandedOver now entry := by
  refine @Machine.exists_run _ _ _ (·.Awaits now entry) (·.HandedOver now entry) _ looksLeft _ ?_ h
  intro later hawaits hnot
  have hdue : entry.due ≤ later.now := by
    rw [hawaits.now_eq]
    exact hawaits.due
  have hlt := looksLeft_tick_lt hawaits.orderly (hawaits.place.resolve_right hnot) hdue
  exact ⟨.tick, rfl, trivial, hawaits.tick, hlt⟩

def Act.isWork : Act τ → Bool
  | .tick => true
  | .start _ => true
  | _ => false

theorem Awaits.exists_carried {now : Nat} {entry : Entry τ} (h : keeper.Awaits now entry) :
    ∃ more : List (Act τ), (∀ act ∈ more, act.isWork = true) ∧ machine.Admits keeper more ∧
      ⟨now, entry⟩ ∈ (machine.follow keeper more).handed ∧
      entry ∈ (machine.follow keeper more).carried := by
  rcases h.exists_handedOver with ⟨ticks, hticks, hadmits, hawaits, hhanded, hwaiting⟩
  rcases List.getElem_of_mem hwaiting with ⟨place, hplace, hentry⟩
  refine ⟨ticks ++ [.start place], ?_, ?_, ?_, ?_⟩
  . rw [List.forall_mem_append, List.forall_mem_singleton]
    refine ⟨?_, rfl⟩
    intro act hmem
    rw [hticks act hmem]
    rfl
  . rw [Machine.admits_append_iff]
    exact ⟨hadmits, hplace, trivial⟩
  . rw [Machine.follow_concat]
    exact hhanded
  . rw [Machine.follow_concat]
    apply List.mem_append_right
    rw [List.getElem?_eq_getElem hplace, hentry, Option.mem_toList, Option.filter_eq_some_iff,
      Timetable.carriesOut, hawaits.active]
    exact ⟨rfl, rfl⟩

theorem exists_tick_start (keeper : Timekeeper τ) {handed : Option (Entry τ)}
    {timetable : Timetable τ}
    (htick : keeper.timetable.tick keeper.now = (handed, timetable)) :
    ∃ acts, machine.Admits keeper acts ∧ (machine.follow keeper acts).now = keeper.now ∧
      (machine.follow keeper acts).timetable = timetable ∧
      (machine.follow keeper acts).carried
        = keeper.carried ++ (handed.filter timetable.carriesOut).toList := by
  have hnext : keeper.next .tick = keeper.look handed timetable := by
    simp only [next, htick]
  cases handed with
  | none =>
    refine ⟨[.tick], ⟨trivial, trivial⟩, ?_⟩
    rw [show machine.follow keeper [.tick] = _ from hnext]
    simp [look]
  | some entry =>
    have hwaiting : (keeper.look (some entry) timetable).waiting[keeper.waiting.length]?
        = some entry := by
      simp [look]
    refine ⟨[.tick, .start keeper.waiting.length], ⟨trivial, ?_, trivial⟩, ?_⟩
    . rw [show machine.next keeper .tick = _ from hnext]
      exact (List.getElem?_eq_some_iff.mp hwaiting).1
    . have hfollow : machine.follow keeper [.tick, .start keeper.waiting.length]
          =
        (keeper.next .tick).next (.start keeper.waiting.length) := by
        rfl
      rw [hfollow, hnext]
      simp only [next, hwaiting]
      exact ⟨rfl, rfl, rfl⟩

theorem follow_pass (time : Nat) :
    machine.follow keeper [.pass (time - keeper.now)]
      =
    { keeper with now := max keeper.now time } := by
  have hnow : keeper.now + (time - keeper.now) = max keeper.now time := by omega
  rw [← hnow]
  rfl

theorem exists_pass_tick_start (keeper : Timekeeper τ) (time : Nat) {handed : Option (Entry τ)}
    {timetable : Timetable τ}
    (htick : keeper.timetable.tick (max keeper.now time) = (handed, timetable)) :
    ∃ acts, machine.Admits keeper acts ∧
      (machine.follow keeper acts).now = max keeper.now time ∧
      (machine.follow keeper acts).timetable = timetable ∧
      (machine.follow keeper acts).carried
        = keeper.carried ++ (handed.filter timetable.carriesOut).toList := by
  let later := { keeper with now := max keeper.now time }
  rcases later.exists_tick_start htick with ⟨acts, hadmits, hstate⟩
  refine ⟨[.pass (time - keeper.now)] ++ acts, ?_, ?_⟩
  . rw [Machine.admits_append_iff, follow_pass]
    exact ⟨⟨trivial, trivial⟩, hadmits⟩
  . rw [Machine.follow_append, follow_pass]
    exact hstate

theorem exists_advance_go (limit : Option Nat) (enough : List (Entry τ) → Bool) (fuel : Nat)
    (done : List (Entry τ)) (keeper : Timekeeper τ) :
    ∃ acts more, machine.Admits keeper acts ∧
      (machine.follow keeper acts).carried = keeper.carried ++ more ∧
      Timetable.advance.go limit enough fuel keeper.now done keeper.timetable
        = ((machine.follow keeper acts).now, done ++ more,
            (machine.follow keeper acts).timetable) := by
  induction fuel generalizing keeper done with
  | zero => exact ⟨[], [], trivial, by simp [Machine.follow, Timetable.advance.go]⟩
  | succ fuel ih =>
    unfold Timetable.advance.go
    split
    . exact ⟨[], [], trivial, by simp [Machine.follow]⟩
    . split
      . refine ⟨[.pass (limit.getD keeper.now - keeper.now)], [], ⟨trivial, trivial⟩, ?_⟩
        simp [follow_pass]
      . next entry _ _ =>
        split
        . refine ⟨[.pass (limit.getD keeper.now - keeper.now)], [], ⟨trivial, trivial⟩, ?_⟩
          simp [follow_pass]
        . rcases htick : keeper.timetable.tick (max keeper.now entry.due) with
            ⟨handed, timetable⟩
          rcases keeper.exists_pass_tick_start entry.due htick with
            ⟨looks, hlooks, hnow, htimetable, hcarried⟩
          let started := (handed.filter timetable.carriesOut).toList
          -- The rest of the time passes from the state after this entry on.
          rcases ih (done ++ started) (machine.follow keeper looks) with
            ⟨acts, more, hacts, hmore, hgo⟩
          rw [hnow, htimetable, List.append_assoc] at hgo
          refine ⟨looks ++ acts, started ++ more, ?_, ?_, ?_⟩
          . exact (machine.admits_append_iff).mpr ⟨hlooks, hacts⟩
          . rw [Machine.follow_append, hmore, hcarried, List.append_assoc]
          . rw [Machine.follow_append, ← hgo]
            simp only [htick, started]

/--
Letting time pass is a run in which each task is started as soon as it is handed over.
-/
theorem exists_advance (keeper : Timekeeper τ) (fuel : Nat) (limit : Option Nat)
    (enough : List (Entry τ) → Bool) :
    ∃ more done, machine.Admits keeper more ∧
      (machine.follow keeper more).carried = keeper.carried ++ done ∧
      keeper.timetable.advance fuel limit enough keeper.now
        = ((machine.follow keeper more).now, done, (machine.follow keeper more).timetable) :=
  exists_advance_go limit enough fuel [] keeper

/--
On every run of a timetable nothing is handed over before it is due, and all is handed over in the
order of times and numbers. What is done once is handed over once at most, and what is repeated has
its period between one run and the next, whatever the delays were. Nothing comes of a task after it
was cancelled, and nothing is handed over after the end. Otherwise a task stays on the timetable
until it is handed over, and unless the end has begun what is due there can be handed over and
carried out at once. To let time pass is to continue the run.
-/
theorem handed_over_punctually (start : Nat) (acts : List (Act τ))
    (hadmits : machine.Admits (initial τ start) acts) :
    let keeper := after start acts
    (keeper.orders.map (·.sequence)).Nodup ∧
    (∀ run ∈ keeper.handed, run.entry.due ≤ run.time ∧ run.time ≤ keeper.now ∧
      ∃ first ∈ keeper.orders, IsRunOf run.entry first) ∧
    ((keeper.handed.map (·.entry)).Pairwise fun a b =>
      a.due < b.due ∨ a.due = b.due ∧ a.sequence < b.sequence) ∧
    (∀ first ∈ keeper.orders, first.period = none →
      (keeper.runsOf first.sequence).length ≤ 1) ∧
    (∀ first ∈ keeper.orders, ∀ period, first.period = some period →
      ((keeper.runsOf first.sequence).map (·.entry.due)).Pairwise (· + period ≤ ·) ∧
      ∀ time, ((keeper.runsOf first.sequence).filter (·.time ≤ time)).length ≤
        if time < first.due then 0 else 1 + (time - first.due) / period) ∧
    (∀ front behind sequence, acts = front ++ .cancel sequence :: behind →
      keeper.runsOf sequence = (after start front).runsOf sequence ∧
      keeper.carriedOf sequence = (after start front).carriedOf sequence) ∧
    (∀ front behind, acts = front ++ .shutdown :: behind →
      keeper.handed = (after start front).handed) ∧
    keeper.Started ∧
    (.shutdown ∉ acts → ∀ first ∈ keeper.orders, .cancel first.sequence ∉ acts →
      keeper.Kept first) ∧
    (.close ∉ acts →
      ∀ entry ∈ keeper.timetable.entries, entry.due ≤ keeper.now → .cancel entry.sequence ∉ acts →
      ∃ more : List (Act τ), (∀ act ∈ more, act.isWork = true) ∧ machine.Admits keeper more ∧
        ⟨keeper.now, entry⟩ ∈ (machine.follow keeper more).handed ∧
        entry ∈ (machine.follow keeper more).carried) ∧
    ∀ fuel limit enough, ∃ more done, machine.Admits keeper more ∧
      (machine.follow keeper more).carried = keeper.carried ++ done ∧
      keeper.timetable.advance fuel limit enough keeper.now
        = ((machine.follow keeper more).now, done, (machine.follow keeper more).timetable) := by
  intro keeper
  have horderly : keeper.Orderly := orderly_after hadmits
  refine ⟨?_, ?_, ?_, ?_, ?_, ?_, ?_, started_after hadmits, ?_, ?_, keeper.exists_advance⟩
  . rw [horderly.numbers]
    exact List.nodup_range
  . intro run hmem
    have hdue := horderly.due run hmem
    exact ⟨hdue.1, hdue.2,
      horderly.ordered run.entry (List.mem_append_left _ (List.mem_map_of_mem hmem))⟩
  . rw [List.pairwise_map]
    exact horderly.pairwise_handed.imp fun hleads => Entry.before_iff.mp hleads.1
  . intro first hfirst hperiod
    exact horderly.length_runsOf_le_one hfirst hperiod
  . intro first hfirst period hperiod
    exact ⟨horderly.pairwise_due hfirst hperiod, horderly.length_runsOf_le hfirst hperiod⟩
  . rintro front behind sequence rfl
    exact since_cancel front behind sequence
  . rintro front behind rfl
    exact since_shutdown front behind
  . intro hshutdown first hfirst hcancel
    exact kept_after hadmits hshutdown hfirst hcancel
  . intro _ entry hmem hdue hcancel
    have hactive : keeper.timetable.isCancelled entry.sequence = false := by
      rw [← Bool.not_eq_true, isCancelled_after_iff]
      exact hcancel
    exact Awaits.exists_carried ⟨horderly, rfl, hdue, hactive, .inl hmem⟩

/--
The timetable is not looked at for a long time. The second task is then handed over once for all
the runs that were missed, and this run does nothing since the task is cancelled before it is
started. The third task was cancelled before it was due.
-/
theorem handed_over_punctually_stalled :
    let acts : List (Act Nat) :=
      [.put 10 none 7, .put 0 (some 5) 8, .put 3 none 9, .cancel 2, .tick, .start 0, .pass 23,
        .tick, .tick, .tick, .tick, .cancel 1, .start 0, .start 0, .shutdown, .tick,
        .put 0 none 7]
    let keeper := after 0 acts
    keeper.handed.map (fun run => (run.time, run.entry.due, run.entry.task))
      = [(0, 0, 8), (23, 5, 8), (23, 10, 7)] ∧
    keeper.carried.map (·.task) = [8, 7] ∧
    ((keeper.runsOf 1).filter (·.time ≤ 23)).length ≤ 1 + (23 - 0) / 5 ∧
    keeper.carriedOf 1 = (after 0 (acts.take 11)).carriedOf 1 := by
  intro acts keeper
  rcases handed_over_punctually 0 acts (by decide) with ⟨-, -, -, -, hrepeated, hcancelled, -⟩
  have hfirst : ⟨0, 1, some 5, 8⟩ ∈ keeper.orders := by decide
  refine ⟨by decide, by decide, ?_, ?_⟩
  . exact (hrepeated _ hfirst 5 rfl).2 23
  . exact (hcancelled (acts.take 11) (acts.drop 12) 1 rfl).2

end Timekeeper

end Zeroconf.Work
