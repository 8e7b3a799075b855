import Mathlib.Data.List.Perm.Basic
import Zeroconf.Work.Timetable

/-!
This module contains the order of the entries on a timetable, what a look at the first entry can
lead to, and which uses of the timetable plan a task.
-/

namespace Zeroconf.Work.Timetable

variable {τ : Type}

namespace Entry

variable {a b c : Entry τ}

theorem before_iff :
    a.before b = true ↔ a.due < b.due ∨ a.due = b.due ∧ a.sequence < b.sequence := by
  simp [before]

theorem before_trans (hab : a.before b = true) (hbc : b.before c = true) :
    a.before c = true := by
  rw [before_iff] at *
  omega

theorem before_of_not_before (h : ¬ a.before b = true) (hsequence : b.sequence ≠ a.sequence) :
    b.before a = true := by
  rw [before_iff] at *
  omega

/--
Whether an entry can come before another one: if both are of one task, its period has passed.
-/
def LeadsTo (a b : Entry τ) : Prop :=
  a.before b = true ∧
    (a.sequence = b.sequence → ∃ period, a.period = some period ∧ a.due + period ≤ b.due)

theorem leadsTo_of_before (h : a.before b = true) (hsequence : a.sequence ≠ b.sequence) :
    a.LeadsTo b :=
  ⟨h, fun heq => absurd heq hsequence⟩

theorem LeadsTo.later (h : a.LeadsTo b) (hsequence : c.sequence = b.sequence)
    (hdue : b.due < c.due) : a.LeadsTo c := by
  constructor
  . have hbefore := before_iff.mp h.1
    rw [before_iff]
    omega
  . intro heq
    rcases h.2 (heq.trans hsequence) with ⟨period, hperiod, hle⟩
    exact ⟨period, hperiod, by omega⟩

theorem due_add_le_again (entry : Entry τ) (now period : Nat) :
    entry.due + period ≤ (entry.again now period).due := by
  simp only [again]
  split <;> omega

theorem le_due_again (entry : Entry τ) (now period : Nat) :
    now ≤ (entry.again now period).due := by
  simp only [again]
  split <;> omega

theorem leadsTo_again {entry : Entry τ} {period : Nat} (hperiod : entry.period = some period)
    (hpos : 0 < period) (now : Nat) : entry.LeadsTo (entry.again now period) := by
  have hdue := entry.due_add_le_again now period
  constructor
  . rw [before_iff]
    omega
  . intro
    exact ⟨period, hperiod, hdue⟩

end Entry

theorem perm_insert (entry : Entry τ) (entries : List (Entry τ)) :
    (insert entry entries).Perm (entry :: entries) := by
  induction entries with
  | nil => exact .refl _
  | cons first others ih =>
    unfold insert
    split
    . exact .refl _
    . exact (ih.cons first).trans (.swap entry first others)

theorem mem_insert {entry other : Entry τ} {entries : List (Entry τ)} :
    other ∈ insert entry entries ↔ other = entry ∨ other ∈ entries := by
  rw [(perm_insert entry entries).mem_iff, List.mem_cons]

theorem pairwise_insert {entry : Entry τ} {entries : List (Entry τ)}
    (h : entries.Pairwise Entry.LeadsTo)
    (hsequence : ∀ other ∈ entries, other.sequence ≠ entry.sequence) :
    (insert entry entries).Pairwise Entry.LeadsTo := by
  induction entries with
  | nil => exact List.pairwise_singleton ..
  | cons first others ih =>
    have hfirst := hsequence first (List.mem_cons_self ..)
    have hothers := fun other hmem => hsequence other (List.mem_cons_of_mem first hmem)
    rw [List.pairwise_cons] at h
    unfold insert
    split
    . next hbefore =>
      rw [List.pairwise_cons, List.pairwise_cons]
      refine ⟨?_, h⟩
      intro other hmem
      rcases List.mem_cons.mp hmem with rfl | hmem
      . exact Entry.leadsTo_of_before hbefore hfirst.symm
      . have hother := Entry.before_trans hbefore (h.1 other hmem).1
        exact Entry.leadsTo_of_before hother (hothers other hmem).symm
    . next hbefore =>
      rw [List.pairwise_cons]
      refine ⟨?_, ih h.2 hothers⟩
      intro other hmem
      rcases mem_insert.mp hmem with rfl | hmem
      . exact Entry.leadsTo_of_before (Entry.before_of_not_before hbefore hfirst) hfirst
      . exact h.1 other hmem

theorem pairwise_append_insert {entry : Entry τ} {front entries : List (Entry τ)}
    (h : (front ++ entries).Pairwise Entry.LeadsTo) (hfront : ∀ other ∈ front, other.LeadsTo entry)
    (hsequence : ∀ other ∈ entries, other.sequence ≠ entry.sequence) :
    (front ++ insert entry entries).Pairwise Entry.LeadsTo := by
  rw [List.pairwise_append] at *
  refine ⟨h.1, pairwise_insert h.2.1 hsequence, ?_⟩
  intro a ha b hb
  rcases mem_insert.mp hb with rfl | hb
  . exact hfront a ha
  . exact h.2.2 a ha b hb

inductive Looks (timetable : Timetable τ) (now : Nat) : Option (Entry τ) → Timetable τ → Prop where
  | early (hdue : ∀ entry ∈ timetable.entries.head?, now < entry.due) :
      timetable.Looks now none timetable
  | dropped {entry : Entry τ} {others : List (Entry τ)}
      (hentries : timetable.entries = entry :: others) (hdue : entry.due ≤ now)
      (hcancelled : timetable.isCancelled entry.sequence = true) :
      timetable.Looks now none { timetable with entries := others }
  | once {entry : Entry τ} {others : List (Entry τ)}
      (hentries : timetable.entries = entry :: others) (hdue : entry.due ≤ now)
      (hcancelled : timetable.isCancelled entry.sequence = false) (hperiod : entry.period = none) :
      timetable.Looks now (some entry) { timetable with entries := others }
  | again {entry : Entry τ} {others : List (Entry τ)} {period : Nat}
      (hentries : timetable.entries = entry :: others) (hdue : entry.due ≤ now)
      (hcancelled : timetable.isCancelled entry.sequence = false)
      (hperiod : entry.period = some period) :
      timetable.Looks now (some entry)
        { timetable with entries := insert (entry.again now period) others }

theorem looks_tick (timetable : Timetable τ) (now : Nat) :
    timetable.Looks now (timetable.tick now).1 (timetable.tick now).2 := by
  unfold tick
  split
  . next hentries => exact .early (by simp [hentries])
  . next entry others hentries =>
    split
    . next hdue => exact .early (by simpa [hentries] using hdue)
    . next hdue =>
      have hdue := Nat.le_of_not_lt hdue
      split
      . next hcancelled => exact .dropped hentries hdue hcancelled
      . next hcancelled =>
        rw [Bool.not_eq_true] at hcancelled
        cases hperiod : entry.period with
        | none => exact .once hentries hdue hcancelled hperiod
        | some period => exact .again hentries hdue hcancelled hperiod

namespace Looks

variable {timetable later : Timetable τ} {now : Nat} {entry : Entry τ} {handed : Option (Entry τ)}

theorem isCancelled_eq (h : timetable.Looks now handed later) :
    later.isCancelled = timetable.isCancelled := by
  cases h <;> rfl

theorem isCancelled_handed (h : timetable.Looks now (some entry) later) :
    timetable.isCancelled entry.sequence = false := by
  cases h with
  | once _ _ hcancelled => exact hcancelled
  | again _ _ hcancelled => exact hcancelled

theorem mem_or_handed (h : timetable.Looks now handed later) (hmem : entry ∈ timetable.entries)
    (hcancelled : timetable.isCancelled entry.sequence = false) :
    entry ∈ later.entries ∨
      handed = some entry ∧
        ∀ period, entry.period = some period → entry.again now period ∈ later.entries := by
  cases h with
  | early => exact .inl hmem
  | dropped hentries _ hdropped =>
    rw [hentries] at hmem
    rcases List.mem_cons.mp hmem with rfl | hmem
    . rw [hcancelled] at hdropped
      contradiction
    . exact .inl hmem
  | once hentries _ _ hperiod =>
    rw [hentries] at hmem
    rcases List.mem_cons.mp hmem with rfl | hmem
    . exact .inr ⟨rfl, by simp [hperiod]⟩
    . exact .inl hmem
  | again hentries _ _ hperiod =>
    rw [hentries] at hmem
    rcases List.mem_cons.mp hmem with rfl | hmem
    . refine .inr ⟨rfl, ?_⟩
      intro period hsome
      rw [hperiod, Option.some_inj] at hsome
      rw [hsome]
      exact mem_insert.mpr (.inl rfl)
    . exact .inl (mem_insert.mpr (.inr hmem))

end Looks

inductive Use (τ : Type) where
  | put (now delay : Nat) (period : Option Nat) (task : τ)
  | cancel (number : Nat)
  | tick (now : Nat)
  | shutdown

def use (timetable : Timetable τ) : Use τ → Timetable τ
  | .put now delay period task =>
    match timetable.push now delay period task with
    | .ok (_, later) => later
    | .error _ => timetable
  | .cancel number => timetable.cancel number
  | .tick now => (timetable.tick now).2
  | .shutdown => timetable.shutdown

/--
Whether a task has an entry with the given number, and has not been cancelled.
-/
def Plans (timetable : Timetable τ) (task : τ) (number : Nat) : Prop :=
  (∃ entry ∈ timetable.entries, entry.task = task ∧ entry.sequence = number) ∧
    timetable.isCancelled number = false

variable {timetable : Timetable τ} {task : τ} {number : Nat}

theorem plans_insert {entry : Entry τ} {entries : List (Entry τ)} {nextSequence : Nat}
    (h : { timetable with entries := insert entry entries, nextSequence }.Plans task number) :
    entry.task = task ∧ entry.sequence = number ∨
      { timetable with entries }.Plans task number := by
  rcases h with ⟨⟨other, hmem, hother⟩, hcancelled⟩
  rcases mem_insert.mp hmem with rfl | hmem
  . exact .inl hother
  . exact .inr ⟨⟨other, hmem, hother⟩, hcancelled⟩

theorem plans_of_push {now delay sequence : Nat} {period : Option Nat} {other : τ}
    {later : Timetable τ} (hpush : timetable.push now delay period other = .ok (sequence, later))
    (h : later.Plans task number) :
    other = task ∧ sequence = number ∨ timetable.Plans task number := by
  unfold push at hpush
  split at hpush
  . contradiction
  . cases hpush
    exact plans_insert h

theorem plans_of_cancel {sequence : Nat} (h : (timetable.cancel sequence).Plans task number) :
    sequence ≠ number ∧ timetable.Plans task number := by
  rcases h with ⟨hentry, hcancelled⟩
  simp only [isCancelled, cancel, List.contains_append, Bool.or_eq_false_iff] at hcancelled
  refine ⟨?_, hentry, hcancelled.1⟩
  rintro rfl
  simp at hcancelled

theorem plans_of_tick {now : Nat} (h : (timetable.tick now).2.Plans task number) :
    timetable.Plans task number := by
  have hlooks := timetable.looks_tick now
  generalize (timetable.tick now).1 = handed at hlooks
  generalize (timetable.tick now).2 = later at hlooks h
  cases hlooks with
  | early => exact h
  | dropped hentries | once hentries =>
    rcases h with ⟨⟨entry, hmem, hentry⟩, hcancelled⟩
    exact ⟨⟨entry, hentries ▸ List.mem_cons_of_mem _ hmem, hentry⟩, hcancelled⟩
  | @again first others period hentries =>
    rcases plans_insert h with hfirst | ⟨⟨entry, hmem, hentry⟩, hcancelled⟩
    . -- The next entry of a task has the number of this one.
      exact ⟨⟨first, hentries ▸ List.mem_cons_self .., hfirst⟩, h.2⟩
    . exact ⟨⟨entry, hentries ▸ List.mem_cons_of_mem _ hmem, hentry⟩, hcancelled⟩

theorem plans_of_use {use : Use τ} (hother : ∀ now delay period, use ≠ .put now delay period task)
    (h : (timetable.use use).Plans task number) : timetable.Plans task number := by
  cases use with
  | put now delay period other =>
    simp only [Timetable.use] at h
    split at h
    . next hpush =>
      rcases plans_of_push hpush h with ⟨rfl, -⟩ | h
      . exact absurd rfl (hother now delay period)
      . exact h
    . exact h
  | cancel sequence => exact (plans_of_cancel h).2
  | tick now => exact plans_of_tick h
  | shutdown =>
    rcases h with ⟨⟨entry, hmem, -⟩, -⟩
    contradiction

end Zeroconf.Work.Timetable
