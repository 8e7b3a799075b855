import Mathlib.Data.List.Nodup
import Mathlib.Data.List.Range
import Zeroconf.Proofs.Machine
import Zeroconf.Proofs.Work.Timetable

/-!
This module contains timetables that are kept while time passes: tasks are put down and cancelled,
the first entry is looked at again and again, and workers start what was handed over to them.
-/

namespace Zeroconf.Work

open Timetable (Entry)

structure Timekeeper.Run (τ : Type) where
  time : Nat
  entry : Entry τ
  deriving DecidableEq, Repr

/--
A timetable at a moment, together with what has become of the tasks that were put down on it.
-/
structure Timekeeper (τ : Type) where
  timetable : Timetable τ := {}
  now : Nat
  /-- The entries as they were put down for the first time. -/
  orders : List (Entry τ) := []
  handed : List (Timekeeper.Run τ) := []
  /-- The entries that were handed over and that no worker has started. -/
  waiting : List (Entry τ) := []
  /-- The entries whose tasks were carried out. -/
  carried : List (Entry τ) := []

namespace Timekeeper

variable {τ : Type}

inductive Act (τ : Type) where
  | put (delay : Nat) (period : Option Nat) (task : τ)
  | cancel (sequence : Nat)
  | pass (span : Nat)
  /-- The first entry is looked at. -/
  | tick
  /-- A worker starts the entry at a place among those that wait. -/
  | start (place : Nat)
  /--
  A call begins to end the timetable: nothing more is put down, but a look at the first entry may
  still be under way.
  -/
  | close
  /-- The first call that ends the timetable returns. -/
  | shutdown
  deriving DecidableEq, Repr

def Enabled (keeper : Timekeeper τ) : Act τ → Prop
  | .put _ period _ => period ≠ some 0
  | .start place => place < keeper.waiting.length
  | _ => True

instance (keeper : Timekeeper τ) (act : Act τ) : Decidable (keeper.Enabled act) := by
  cases act <;> unfold Enabled <;> infer_instance

def look (keeper : Timekeeper τ) (handed : Option (Entry τ)) (timetable : Timetable τ) :
    Timekeeper τ :=
  { keeper with
    timetable
    handed := keeper.handed ++ handed.toList.map (⟨keeper.now, ·⟩)
    waiting := keeper.waiting ++ handed.toList }

def next (keeper : Timekeeper τ) : Act τ → Timekeeper τ
  | .put delay period task =>
    match keeper.timetable.push keeper.now delay period task with
    | .ok (sequence, timetable) =>
      let first := ⟨keeper.now + delay, sequence, period, task⟩
      { keeper with timetable, orders := keeper.orders ++ [first] }
    | .error _ => keeper
  | .cancel sequence => { keeper with timetable := keeper.timetable.cancel sequence }
  | .pass span => { keeper with now := keeper.now + span }
  | .tick =>
    let (handed, timetable) := keeper.timetable.tick keeper.now
    keeper.look handed timetable
  | .start place =>
    let started := keeper.waiting[place]?.filter keeper.timetable.carriesOut
    { keeper with
      waiting := keeper.waiting.eraseIdx place
      carried := keeper.carried ++ started.toList }
  | .close => { keeper with timetable := { keeper.timetable with closed := true } }
  | .shutdown => { keeper with timetable := keeper.timetable.shutdown }

def machine : Machine (Timekeeper τ) (Act τ) := ⟨Enabled, next⟩

instance (keeper : Timekeeper τ) (act : Act τ) : Decidable (machine.Enabled keeper act) :=
  inferInstanceAs (Decidable (keeper.Enabled act))

def initial (τ : Type) (now : Nat) : Timekeeper τ := { now }

def after (start : Nat) (acts : List (Act τ)) : Timekeeper τ :=
  machine.follow (initial τ start) acts

theorem after_append (start : Nat) (front behind : List (Act τ)) :
    after start (front ++ behind) = machine.follow (after start front) behind :=
  machine.follow_append ..

theorem after_concat (start : Nat) (acts : List (Act τ)) (act : Act τ) :
    after start (acts ++ [act]) = (after start acts).next act :=
  machine.follow_concat ..

/--
All that was handed over, and then all that is still to be.
-/
def course (keeper : Timekeeper τ) : List (Entry τ) :=
  keeper.handed.map (·.entry) ++ keeper.timetable.entries

def runsOf (keeper : Timekeeper τ) (sequence : Nat) : List (Run τ) :=
  keeper.handed.filter (·.entry.sequence == sequence)

def carriedOf (keeper : Timekeeper τ) (sequence : Nat) : List (Entry τ) :=
  keeper.carried.filter (·.sequence == sequence)

variable {keeper : Timekeeper τ}

def register (keeper : Timekeeper τ) (first : Entry τ) : Timekeeper τ :=
  { keeper with
    timetable := { keeper.timetable with nextSequence := keeper.timetable.nextSequence + 1 }
    orders := keeper.orders ++ [first] }

def insert (keeper : Timekeeper τ) (entry : Entry τ) : Timekeeper τ :=
  { keeper with
    timetable :=
      { keeper.timetable with entries := Timetable.insert entry keeper.timetable.entries } }

def first (keeper : Timekeeper τ) (delay : Nat) (period : Option Nat) (task : τ) : Entry τ :=
  ⟨keeper.now + delay, keeper.timetable.nextSequence, period, task⟩

theorem next_put (delay : Nat) (period : Option Nat) (task : τ) :
    keeper.next (.put delay period task)
      =
    if keeper.timetable.closed then
      keeper
    else
      (keeper.register (keeper.first delay period task)).insert
        (keeper.first delay period task) := by
  simp only [next, Timetable.push]
  by_cases hclosed : keeper.timetable.closed = true
  . rw [if_pos hclosed, if_pos hclosed]
  . rw [if_neg hclosed, if_neg hclosed]
    rfl

@[simp]
theorem mem_course_insert {entry other : Entry τ} :
    other ∈ (keeper.insert entry).course ↔ other = entry ∨ other ∈ keeper.course := by
  simp only [course, insert, List.mem_append, Timetable.mem_insert, or_left_comm]

theorem exists_looks (keeper : Timekeeper τ) :
    ∃ handed timetable, keeper.timetable.Looks keeper.now handed timetable ∧
      keeper.next .tick = keeper.look handed timetable :=
  ⟨_, _, keeper.timetable.looks_tick keeper.now, rfl⟩

structure IsRunOf (entry first : Entry τ) : Prop where
  sequence : entry.sequence = first.sequence
  period : entry.period = first.period
  task : entry.task = first.task
  due : first.due ≤ entry.due

theorem isRunOf_refl (first : Entry τ) : IsRunOf first first := ⟨rfl, rfl, rfl, Nat.le_refl _⟩

theorem IsRunOf.again {entry first : Entry τ} (h : IsRunOf entry first) (now period : Nat) :
    IsRunOf (entry.again now period) first where
  sequence := h.sequence
  period := h.period
  task := h.task
  due := by
    have hdue := entry.due_add_le_again now period
    have hfirst := h.due
    omega

/--
Whether all is in order: each entry leads to those behind it and comes from one that was put down,
each task has a number of its own and at most one entry, and nothing was handed over early.
-/
structure Orderly (keeper : Timekeeper τ) : Prop where
  leads : keeper.course.Pairwise Entry.LeadsTo
  nodup : (keeper.timetable.entries.map (·.sequence)).Nodup
  ordered : ∀ entry ∈ keeper.course, ∃ first ∈ keeper.orders, IsRunOf entry first
  numbers : keeper.orders.map (·.sequence) = List.range keeper.timetable.nextSequence
  period : ∀ first ∈ keeper.orders, first.period ≠ some 0
  due : ∀ run ∈ keeper.handed, run.entry.due ≤ run.time ∧ run.time ≤ keeper.now

theorem orderly_initial (now : Nat) : (initial τ now).Orderly := by
  constructor <;> simp [initial, course]

theorem length_mul_le_of_spaced {times : List Nat} {period low high : Nat}
    (hspaced : times.Pairwise (· + period ≤ ·))
    (hbetween : ∀ time ∈ times, low ≤ time ∧ time ≤ high) :
    times.length * period ≤ high + period - low := by
  induction times generalizing low with
  | nil => simp
  | cons time times ih =>
    rw [List.pairwise_cons] at hspaced
    rw [List.forall_mem_cons] at hbetween
    -- The others lie behind the period that begins at `time`.
    have hothers : times.length * period ≤ high + period - (time + period) :=
      ih hspaced.2 fun other hmem => ⟨hspaced.1 other hmem, (hbetween.2 other hmem).2⟩
    rw [List.length_cons, Nat.succ_mul]
    omega

namespace Orderly

theorem sequence_lt (h : keeper.Orderly) {first : Entry τ} (hmem : first ∈ keeper.orders) :
    first.sequence < keeper.timetable.nextSequence := by
  rw [← List.mem_range, ← h.numbers]
  exact List.mem_map_of_mem hmem

theorem course_sequence_lt (h : keeper.Orderly) {entry : Entry τ} (hmem : entry ∈ keeper.course) :
    entry.sequence < keeper.timetable.nextSequence := by
  rcases h.ordered entry hmem with ⟨first, hfirst, hrun⟩
  rw [hrun.sequence]
  exact h.sequence_lt hfirst

theorem period_pos (h : keeper.Orderly) {first : Entry τ} (hmem : first ∈ keeper.orders)
    {period : Nat} (hperiod : first.period = some period) : 0 < period := by
  apply Nat.pos_of_ne_zero
  rintro rfl
  exact h.period first hmem hperiod

theorem course_period_pos (h : keeper.Orderly) {entry : Entry τ} (hmem : entry ∈ keeper.course)
    {period : Nat} (hperiod : entry.period = some period) : 0 < period := by
  rcases h.ordered entry hmem with ⟨first, hfirst, hrun⟩
  apply h.period_pos hfirst
  rw [← hrun.period, hperiod]

theorem insert (h : keeper.Orderly) {entry : Entry τ}
    (hleads : ∀ run ∈ keeper.handed, run.entry.LeadsTo entry)
    (hsequence : ∀ other ∈ keeper.timetable.entries, other.sequence ≠ entry.sequence)
    (hordered : ∃ first ∈ keeper.orders, IsRunOf entry first) : (keeper.insert entry).Orderly where
  leads := by
    apply Timetable.pairwise_append_insert h.leads _ hsequence
    intro other hmem
    rcases List.mem_map.mp hmem with ⟨run, hrun, rfl⟩
    exact hleads run hrun
  nodup := by
    have hperm := (Timetable.perm_insert entry keeper.timetable.entries).map (·.sequence)
    apply hperm.nodup_iff.mpr
    rw [List.map_cons, List.nodup_cons]
    refine ⟨?_, h.nodup⟩
    intro hmem
    rcases List.mem_map.mp hmem with ⟨other, hother, heq⟩
    exact hsequence other hother heq
  ordered other hmem := by
    rcases mem_course_insert.mp hmem with rfl | hmem
    . exact hordered
    . exact h.ordered other hmem
  numbers := h.numbers
  period := h.period
  due := h.due

theorem register (h : keeper.Orderly) {first : Entry τ}
    (hsequence : first.sequence = keeper.timetable.nextSequence)
    (hperiod : first.period ≠ some 0) : (keeper.register first).Orderly where
  leads := h.leads
  nodup := h.nodup
  ordered entry hmem := by
    rcases h.ordered entry hmem with ⟨other, hother, hrun⟩
    exact ⟨other, List.mem_append_left _ hother, hrun⟩
  numbers := by
    simp only [Timekeeper.register]
    rw [List.map_append, h.numbers, List.range_succ, ← hsequence]
    rfl
  period other hmem := by
    rcases List.mem_append.mp hmem with hmem | hmem
    . exact h.period other hmem
    . rwa [List.mem_singleton.mp hmem]
  due := h.due

theorem next_put (h : keeper.Orderly) (delay : Nat) {period : Option Nat} (task : τ)
    (hperiod : period ≠ some 0) : (keeper.next (.put delay period task)).Orderly := by
  rw [Timekeeper.next_put]
  split
  . exact h
  . have hlast : keeper.first delay period task
        ∈ (keeper.register (keeper.first delay period task)).orders :=
      List.mem_append_right _ (List.mem_singleton.mpr rfl)
    apply (h.register rfl hperiod).insert
    . intro run hmem
      have hlt := h.course_sequence_lt (List.mem_append_left _ (List.mem_map_of_mem hmem))
      have hrun := h.due run hmem
      -- What was handed over was due by now, and in case of a tie the numbers decide.
      apply Entry.leadsTo_of_before _ (Nat.ne_of_lt hlt)
      rw [Entry.before_iff]
      simp only [first]
      omega
    . intro other hmem
      exact Nat.ne_of_lt (h.course_sequence_lt (List.mem_append_right _ hmem))
    . exact ⟨_, hlast, isRunOf_refl _⟩

theorem sublist (h : keeper.Orderly) {handed : Option (Entry τ)} {entries : List (Entry τ)}
    (hentries : (handed.toList ++ entries).Sublist keeper.timetable.entries)
    (hdue : ∀ entry ∈ handed, entry.due ≤ keeper.now) :
    (keeper.look handed { keeper.timetable with entries }).Orderly := by
  have hcourse :
      (keeper.look handed { keeper.timetable with entries }).course.Sublist keeper.course := by
    simpa [look, course, Function.comp_def] using hentries
  refine ⟨h.leads.sublist hcourse, ?_, ?_, h.numbers, h.period, ?_⟩
  . have hothers := (List.sublist_append_right ..).trans hentries
    exact h.nodup.sublist (hothers.map _)
  . intro entry hmem
    exact h.ordered entry (hcourse.subset hmem)
  . intro run hmem
    rcases List.mem_append.mp hmem with hmem | hmem
    . exact h.due run hmem
    . rcases List.mem_map.mp hmem with ⟨entry, hentry, rfl⟩
      exact ⟨hdue entry (Option.mem_toList.mp hentry), Nat.le_refl _⟩

theorem again (h : keeper.Orderly) {entry : Entry τ} {others : List (Entry τ)} {period : Nat}
    (hentries : keeper.timetable.entries = entry :: others) (hdue : entry.due ≤ keeper.now)
    (hperiod : entry.period = some period) :
    ((keeper.look (some entry) { keeper.timetable with entries := others }).insert
      (entry.again keeper.now period)).Orderly := by
  have hcourse := h.leads
  have hnodup := h.nodup
  rw [course, hentries, List.pairwise_append] at hcourse
  rw [hentries, List.map_cons, List.nodup_cons] at hnodup
  have hentry : entry ∈ keeper.course := by simp [course, hentries]
  have hpos := h.course_period_pos hentry hperiod
  have htaken : (keeper.look (some entry) { keeper.timetable with entries := others }).Orderly := by
    apply h.sublist _ (by simpa using hdue)
    rw [hentries]
    apply List.Sublist.refl
  apply htaken.insert
  . intro run hmem
    rcases List.mem_append.mp hmem with hmem | hmem
    . -- Earlier runs lead to this one, and therefore to what comes after it.
      have hrun := List.mem_map_of_mem (f := (·.entry)) hmem
      have hleads := hcourse.2.2 run.entry hrun entry (List.mem_cons_self ..)
      have hlater := entry.due_add_le_again keeper.now period
      have hlt : entry.due < (entry.again keeper.now period).due := by omega
      exact hleads.later rfl hlt
    . rw [List.mem_singleton.mp hmem]
      apply Entry.leadsTo_again hperiod hpos
  . intro other hmem heq
    apply hnodup.1
    exact List.mem_map.mpr ⟨other, hmem, heq⟩
  . rcases h.ordered entry hentry with ⟨first, hfirst, hrun⟩
    exact ⟨first, hfirst, hrun.again keeper.now period⟩

theorem look (h : keeper.Orderly) {handed : Option (Entry τ)} {timetable : Timetable τ}
    (hlooks : keeper.timetable.Looks keeper.now handed timetable) :
    (keeper.look handed timetable).Orderly := by
  cases hlooks with
  | early => exact h.sublist (List.Sublist.refl _) (by simp)
  | @dropped entry others hentries =>
    apply h.sublist _ (by simp)
    rw [hentries]
    apply List.sublist_cons_self
  | @once entry others hentries hdue =>
    apply h.sublist _ (by simpa using hdue)
    rw [hentries]
    apply List.Sublist.refl
  | again hentries hdue _ hperiod => exact h.again hentries hdue hperiod

theorem next (h : keeper.Orderly) {act : Act τ} (henabled : keeper.Enabled act) :
    (keeper.next act).Orderly := by
  cases act with
  | put delay period task => exact h.next_put delay task henabled
  | pass span =>
    refine ⟨h.leads, h.nodup, h.ordered, h.numbers, h.period, ?_⟩
    intro run hmem
    exact ⟨(h.due run hmem).1, Nat.le_add_right_of_le (h.due run hmem).2⟩
  | tick =>
    rcases keeper.exists_looks with ⟨handed, timetable, hlooks, heq⟩
    rw [heq]
    exact h.look hlooks
  | shutdown =>
    have hempty : (keeper.look none { keeper.timetable with entries := [] }).Orderly :=
      h.sublist (List.nil_sublist _) (by simp)
    simp only [Timekeeper.look, Option.toList_none, List.map_nil, List.append_nil] at hempty
    exact ⟨hempty.leads, hempty.nodup, hempty.ordered, hempty.numbers, hempty.period, hempty.due⟩
  | _ => exact ⟨h.leads, h.nodup, h.ordered, h.numbers, h.period, h.due⟩

theorem head_due_le (h : keeper.Orderly) {head entry : Entry τ} {others : List (Entry τ)}
    (hentries : keeper.timetable.entries = head :: others)
    (hmem : entry ∈ keeper.timetable.entries) : head.due ≤ entry.due := by
  have hleads := (List.pairwise_append.mp h.leads).2.1
  rw [hentries] at hleads hmem
  rcases List.mem_cons.mp hmem with rfl | hmem
  . exact Nat.le_refl _
  . have hbefore := Entry.before_iff.mp ((List.pairwise_cons.mp hleads).1 entry hmem).1
    omega

theorem pairwise_handed (h : keeper.Orderly) :
    keeper.handed.Pairwise fun a b => a.entry.LeadsTo b.entry :=
  List.pairwise_map.mp (List.pairwise_append.mp h.leads).1

theorem eq_of_sequence_eq (h : keeper.Orderly) {a b : Entry τ} (ha : a ∈ keeper.orders)
    (hb : b ∈ keeper.orders) (heq : a.sequence = b.sequence) : a = b := by
  have hnodup : (keeper.orders.map (·.sequence)).Nodup := by
    rw [h.numbers]
    exact List.nodup_range
  exact List.inj_on_of_nodup_map hnodup ha hb heq

theorem isRunOf (h : keeper.Orderly) {first entry : Entry τ} (hfirst : first ∈ keeper.orders)
    (hmem : entry ∈ keeper.course) (hsequence : entry.sequence = first.sequence) :
    IsRunOf entry first := by
  rcases h.ordered entry hmem with ⟨other, hother, hrun⟩
  rwa [h.eq_of_sequence_eq hfirst hother (hsequence.symm.trans hrun.sequence)]

theorem isRunOf_of_mem_runsOf (h : keeper.Orderly) {first : Entry τ}
    (hfirst : first ∈ keeper.orders) {run : Run τ} (hmem : run ∈ keeper.runsOf first.sequence) :
    IsRunOf run.entry first := by
  rcases List.mem_filter.mp hmem with ⟨hhanded, hsequence⟩
  exact h.isRunOf hfirst (List.mem_append_left _ (List.mem_map_of_mem hhanded))
    (eq_of_beq hsequence)

theorem pairwise_runsOf (h : keeper.Orderly) {first : Entry τ} (hfirst : first ∈ keeper.orders) :
    (keeper.runsOf first.sequence).Pairwise fun a b =>
      ∃ period, first.period = some period ∧ a.entry.due + period ≤ b.entry.due := by
  have hruns := h.pairwise_handed.filter (·.entry.sequence == first.sequence)
  refine hruns.imp_of_mem ?_
  intro a b ha hb hleads
  have ha := h.isRunOf_of_mem_runsOf hfirst ha
  have hb := h.isRunOf_of_mem_runsOf hfirst hb
  rcases hleads.2 (ha.sequence.trans hb.sequence.symm) with ⟨period, hperiod, hdue⟩
  exact ⟨period, ha.period.symm.trans hperiod, hdue⟩

theorem length_runsOf_le_one (h : keeper.Orderly) {first : Entry τ}
    (hfirst : first ∈ keeper.orders) (hperiod : first.period = none) :
    (keeper.runsOf first.sequence).length ≤ 1 := by
  have hruns := h.pairwise_runsOf hfirst
  match hlist : keeper.runsOf first.sequence with
  | [] => exact Nat.zero_le 1
  | [_] => exact Nat.le_refl 1
  | a :: b :: _ =>
    rw [hlist, List.pairwise_cons] at hruns
    rcases hruns.1 b (List.mem_cons_self ..) with ⟨period, hsome, -⟩
    rw [hperiod] at hsome
    contradiction

theorem pairwise_due (h : keeper.Orderly) {first : Entry τ} (hfirst : first ∈ keeper.orders)
    {period : Nat} (hperiod : first.period = some period) :
    ((keeper.runsOf first.sequence).map (·.entry.due)).Pairwise (· + period ≤ ·) := by
  rw [List.pairwise_map]
  refine (h.pairwise_runsOf hfirst).imp ?_
  rintro a b ⟨other, hother, hdue⟩
  rw [hperiod, Option.some_inj] at hother
  rwa [hother]

theorem length_runsOf_le (h : keeper.Orderly) {first : Entry τ} (hfirst : first ∈ keeper.orders)
    {period : Nat} (hperiod : first.period = some period) (time : Nat) :
    ((keeper.runsOf first.sequence).filter (·.time ≤ time)).length ≤
      if time < first.due then 0 else 1 + (time - first.due) / period := by
  have hpos := h.period_pos hfirst hperiod
  have hruns : ((keeper.runsOf first.sequence).filter (·.time ≤ time)).Sublist
      (keeper.runsOf first.sequence) :=
    List.filter_sublist
  have hspaced := (h.pairwise_due hfirst hperiod).sublist (hruns.map _)
  have hbetween : ∀ run ∈ (keeper.runsOf first.sequence).filter (·.time ≤ time),
      first.due ≤ run.entry.due ∧ run.entry.due ≤ time := by
    intro run hmem
    rcases List.mem_filter.mp hmem with ⟨hrun, htime⟩
    have hdue := (h.due run (List.mem_filter.mp hrun).1).1
    rw [decide_eq_true_eq] at htime
    exact ⟨(h.isRunOf_of_mem_runsOf hfirst hrun).due, Nat.le_trans hdue htime⟩
  have hlength := length_mul_le_of_spaced hspaced (List.forall_mem_map.mpr hbetween)
  rw [List.length_map, ← Nat.le_div_iff_mul_le hpos] at hlength
  apply Nat.le_trans hlength
  split
  . have hlt : time + period - first.due < period := by omega
    rw [Nat.div_eq_of_lt hlt]
  . have hadd : time + period - first.due = time - first.due + period := by omega
    rw [hadd, Nat.add_div_right _ hpos, Nat.add_comm]

end Orderly

end Timekeeper

end Zeroconf.Work
