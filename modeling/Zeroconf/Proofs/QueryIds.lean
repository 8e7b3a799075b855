import Mathlib.Data.List.Nodup
import Mathlib.Data.List.Range
import Mathlib.Data.Nat.ModEq
import Zeroconf.Proofs.Machine
import Zeroconf.QueryIds

/-!
This module contains callers who take numbers from one source at the same time. Each of them
increments the counter until it stands for another number than 0. In whatever order they do so, the
source hands out all numbers but 0 in turn, so that a number comes back only after all others.
-/

namespace Zeroconf

namespace QueryIds

/-- How many numbers there are apart from 0. -/
def cycle : Nat := UInt16.size - 1

def nth (ids : QueryIds) (n : Nat) : UInt16 :=
  .ofNat ((ids.fresh.1.toNat - 1 + n) % cycle + 1)

theorem current_advance (ids : QueryIds) : ids.advance.current = ids.current + 1 := by
  unfold advance current
  dsimp only
  ac_rfl

theorem fst_fresh (ids : QueryIds) :
    ids.fresh.1 = if ids.current = 0 then 1 else ids.current := by
  unfold fresh
  by_cases h : ids.current = 0
  . simp [h, current_advance]
  . simp [h]

theorem toNat_nth (ids : QueryIds) (n : Nat) :
    (ids.nth n).toNat = (ids.fresh.1.toNat - 1 + n) % cycle + 1 := by
  have hlt : (ids.fresh.1.toNat - 1 + n) % cycle < cycle := Nat.mod_lt _ (by decide)
  have hsize : cycle + 1 = UInt16.size := rfl
  unfold nth
  rw [UInt16.toNat_ofNat_of_lt']
  omega

theorem nth_ne_zero (ids : QueryIds) (n : Nat) : ids.nth n ≠ 0 := by
  intro h
  have hnat := congrArg UInt16.toNat h
  rw [toNat_nth] at hnat
  contradiction

theorem mod_eq_of_nth_eq {ids : QueryIds} {m n : Nat} (h : ids.nth m = ids.nth n) :
    m % cycle = n % cycle := by
  have hnat := congrArg UInt16.toNat h
  rw [toNat_nth, toNat_nth, Nat.add_right_cancel_iff] at hnat
  exact Nat.ModEq.add_left_cancel' (ids.fresh.1.toNat - 1) hnat

theorem nodup_map_nth (ids : QueryIds) (start : Nat) {count : Nat} (h : count ≤ cycle) :
    ((List.range' start count).map ids.nth).Nodup := by
  apply List.Nodup.map_on _ List.nodup_range'
  intro m hm n hn heq
  rw [List.mem_range'_1] at hm hn
  have hmod := mod_eq_of_nth_eq heq
  have hcycle : cycle = 65535 := rfl
  rw [hcycle] at h hmod
  omega

theorem nth_zero (ids : QueryIds) : ids.nth 0 = ids.fresh.1 := by
  have hpos : 1 ≤ ids.fresh.1.toNat ∧ ids.fresh.1.toNat < UInt16.size := by
    refine ⟨?_, ids.fresh.1.toNat_lt⟩
    rw [fst_fresh]
    split
    . decide
    . next h =>
      rw [← UInt16.toNat_inj] at h
      exact Nat.pos_of_ne_zero h
  have hsize : UInt16.size = cycle + 1 := rfl
  rw [← UInt16.toNat_inj, toNat_nth, Nat.mod_eq_of_lt]
  . omega
  . omega

theorem nth_advance_of_eq {ids : QueryIds} (h : ids.current = 0) (n : Nat) :
    ids.advance.nth n = ids.nth n := by
  have hfresh : ids.advance.fresh.1 = ids.fresh.1 := by
    rw [fst_fresh, fst_fresh, current_advance, h]
    rfl
  unfold nth
  rw [hfresh]

theorem nth_advance_of_ne {ids : QueryIds} (h : ids.current ≠ 0) (n : Nat) :
    ids.advance.nth n = ids.nth (n + 1) := by
  have hcurrent : ids.fresh.1.toNat = ids.current.toNat := by rw [fst_fresh, if_neg h]
  have hpos : ids.current.toNat ≠ 0 := by simpa [← UInt16.toNat_inj] using h
  have hlt : ids.current.toNat < UInt16.size := ids.current.toNat_lt
  have hnext : ids.advance.fresh.1.toNat - 1 = ids.current.toNat % cycle := by
    rw [fst_fresh, current_advance]
    by_cases hlast : ids.current + 1 = 0
    . -- The last number is followed by 1.
      have hnat := congrArg UInt16.toNat hlast
      rw [UInt16.toNat_add] at hnat
      have hcycle : ids.current.toNat = cycle := by
        simp [UInt16.size, cycle] at *
        omega
      rw [if_pos hlast, hcycle, Nat.mod_self]
      rfl
    . have hnat : (ids.current + 1).toNat ≠ 0 := by simpa [← UInt16.toNat_inj] using hlast
      rw [UInt16.toNat_add] at hnat
      rw [if_neg hlast, UInt16.toNat_add]
      simp [UInt16.size, cycle] at *
      omega
  unfold nth
  rw [hnext, hcurrent, Nat.mod_add_mod]
  congr 3
  omega

end QueryIds

structure Dispenser where
  ids : QueryIds
  /-- Those who are about to take a number. -/
  callers : List Nat := []
  /-- The numbers that were handed out, in order, with those who got them. -/
  handed : List (Nat × UInt16) := []
  deriving DecidableEq

namespace Dispenser

open QueryIds (cycle)

inductive Act where
  | call (caller : Nat)
  /-- A caller increments the counter, which nobody can interrupt. -/
  | increment (caller : Nat)
  deriving DecidableEq

def Enabled (s : Dispenser) : Act → Prop
  | .call caller => caller ∉ s.callers
  | .increment caller => caller ∈ s.callers

/--
A caller whose increment stands for 0 tries again.
-/
def next (s : Dispenser) : Act → Dispenser
  | .call caller => { s with callers := s.callers ++ [caller] }
  | .increment caller =>
    if s.ids.current = 0 then
      { s with ids := s.ids.advance }
    else
      { ids := s.ids.advance
        callers := s.callers.erase caller
        handed := s.handed ++ [(caller, s.ids.current)] }

def machine : Machine Dispenser Act := ⟨Enabled, next⟩

instance (s : Dispenser) (act : Act) : Decidable (machine.Enabled s act) :=
  match act with
  | .call _ => inferInstanceAs (Decidable (¬ _))
  | .increment caller => inferInstanceAs (Decidable (caller ∈ s.callers))

/--
The increments of a caller whom nobody comes between.
-/
def alone (s : Dispenser) (caller : Nat) : List Act :=
  if s.ids.current = 0 then [.increment caller, .increment caller] else [.increment caller]

/--
What was handed out are the numbers of the source in turn, and the others are still to come.
-/
structure Kept (ids : QueryIds) (s : Dispenser) : Prop where
  handed : s.handed.map Prod.snd = (List.range s.handed.length).map ids.nth
  upcoming : ∀ n, s.ids.nth n = ids.nth (s.handed.length + n)

variable {ids : QueryIds} {s : Dispenser}

theorem next_increment_of_eq (h : s.ids.current = 0) (caller : Nat) :
    s.next (.increment caller) = { s with ids := s.ids.advance } :=
  if_pos h

theorem next_increment_of_ne (h : s.ids.current ≠ 0) (caller : Nat) :
    s.next (.increment caller)
      =
    { ids := s.ids.advance
      callers := s.callers.erase caller
      handed := s.handed ++ [(caller, s.ids.current)] } :=
  if_neg h

theorem kept_unused (ids : QueryIds) : Kept ids { ids } := ⟨rfl, by simp⟩

theorem Kept.next (h : s.Kept ids) (act : Act) : (s.next act).Kept ids := by
  cases act with
  | call caller => exact ⟨h.handed, h.upcoming⟩
  | increment caller =>
    by_cases hzero : s.ids.current = 0
    . rw [next_increment_of_eq hzero]
      refine ⟨h.handed, ?_⟩
      intro n
      rw [QueryIds.nth_advance_of_eq hzero]
      exact h.upcoming n
    . have hcurrent : s.ids.current = ids.nth s.handed.length := by
        have := h.upcoming 0
        rwa [QueryIds.nth_zero, QueryIds.fst_fresh, if_neg hzero, Nat.add_zero] at this
      rw [next_increment_of_ne hzero]
      constructor
      . simp [List.range_succ, h.handed, hcurrent]
      . intro n
        rw [QueryIds.nth_advance_of_ne hzero, h.upcoming, List.length_append, List.length_singleton]
        congr 1
        omega

theorem kept_follow {acts : List Act} (hadmits : machine.Admits { ids } acts) :
    (machine.follow { ids } acts).Kept ids :=
  Machine.keeps (fun _ act h _ => h.next act) (kept_unused ids) hadmits

theorem Kept.nodup (h : s.Kept ids) (front : Nat) :
    (((s.handed.map Prod.snd).drop front).take cycle).Nodup := by
  have hwindow : ((List.range s.handed.length).drop front).take cycle
      =
    List.range' front (min cycle (s.handed.length - front)) := by
    apply List.ext_getElem <;> simp
  rw [h.handed, ← List.map_drop, ← List.map_take, hwindow]
  apply QueryIds.nodup_map_nth
  apply Nat.min_le_left

theorem handed_alone {caller : Nat} (h : caller ∈ s.callers) :
    machine.Admits s (s.alone caller) ∧
    machine.follow s (s.alone caller)
      =
    { ids := s.ids.fresh.2
      callers := s.callers.erase caller
      handed := s.handed ++ [(caller, s.ids.fresh.1)] } := by
  unfold alone
  by_cases hzero : s.ids.current = 0
  . -- 0 is followed by another number, so that there is no third increment.
    have hne : s.ids.advance.current ≠ 0 := by
      rw [QueryIds.current_advance, hzero]
      decide
    have hfirst := next_increment_of_eq hzero caller
    rw [if_pos hzero]
    constructor
    . refine ⟨h, ?_, trivial⟩
      change (s.next (.increment caller)).Enabled (.increment caller)
      rw [hfirst]
      exact h
    . change (s.next (.increment caller)).next (.increment caller) = _
      rw [hfirst, next_increment_of_ne hne]
      simp [QueryIds.fresh, hzero]
  . rw [if_neg hzero]
    refine ⟨⟨h, trivial⟩, ?_⟩
    change s.next (.increment caller) = _
    rw [next_increment_of_ne hzero]
    simp [QueryIds.fresh, hzero]

/--
Whatever the seed and the counter are, and however the calls of many callers overlap, no number that
is handed out is 0, and as many numbers in a row as there are apart from 0 are distinct. A caller
whom nobody comes between gets the next fresh number.
-/
theorem handed_distinct (ids : QueryIds) (acts : List Act)
    (hadmits : machine.Admits { ids } acts) :
    let s := machine.follow { ids } acts
    let numbers := s.handed.map Prod.snd
    (∀ number ∈ numbers, number ≠ 0) ∧
    (∀ front, ((numbers.drop front).take 65535).Nodup) ∧
    ∀ caller ∈ s.callers, machine.Admits s (s.alone caller) ∧
      machine.follow s (s.alone caller)
        =
      { ids := s.ids.fresh.2
        callers := s.callers.erase caller
        handed := s.handed ++ [(caller, s.ids.fresh.1)] } := by
  intro s numbers
  have hkept := kept_follow hadmits
  refine ⟨?_, hkept.nodup, fun caller => handed_alone⟩
  intro number hnumber
  have hmem : number ∈ (List.range s.handed.length).map ids.nth := by rwa [← hkept.handed]
  rw [List.mem_map] at hmem
  rcases hmem with ⟨n, -, rfl⟩
  apply QueryIds.nth_ne_zero

/--
Two callers meet at the end of the numbers: the second one comes upon 0, and before it tries again
the first one takes another number.
-/
theorem handed_distinct_overlapping :
    let ids : QueryIds := ⟨0xFFF0, 0xF⟩
    let acts : List Act := [.call 1, .call 2, .increment 1, .increment 2, .call 1, .increment 1,
      .increment 2]
    let s := machine.follow { ids } acts
    machine.Admits { ids } acts ∧
    s.handed = [(1, 0xFFFF), (1, 1), (2, 2)] ∧
    (∀ number ∈ s.handed.map Prod.snd, number ≠ 0) ∧ (s.handed.map Prod.snd).Nodup := by
  intro ids acts s
  have hadmits : machine.Admits { ids } acts := by decide
  rcases handed_distinct ids acts hadmits with ⟨hne, hnodup, -⟩
  refine ⟨hadmits, by decide, hne, ?_⟩
  have hlength : (s.handed.map Prod.snd).length ≤ 65535 := by decide
  have hall := hnodup 0
  rwa [List.drop_zero, List.take_of_length_le hlength] at hall

end Dispenser

end Zeroconf
