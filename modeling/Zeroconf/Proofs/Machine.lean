import Mathlib.Data.List.Induction

/-!
This module contains machines: states, acts that change them, and the rule which acts can happen in
a state. What each single act preserves holds on every run.
-/

namespace Zeroconf

structure Machine (σ α : Type) where
  /-- Whether an act can happen. -/
  Enabled : σ → α → Prop
  next : σ → α → σ

namespace Machine

variable {σ α : Type}

def follow (machine : Machine σ α) (s : σ) (acts : List α) : σ := acts.foldl machine.next s

def Admits (machine : Machine σ α) (s : σ) : List α → Prop
  | [] => True
  | act :: acts => machine.Enabled s act ∧ machine.Admits (machine.next s act) acts

instance Admits.decidable (machine : Machine σ α) [∀ s act, Decidable (machine.Enabled s act)]
    (s : σ) (acts : List α) : Decidable (machine.Admits s acts) :=
  match acts with
  | [] => .isTrue trivial
  | act :: acts =>
    have := decidable machine (machine.next s act) acts
    inferInstanceAs (Decidable (_ ∧ _))

variable (machine : Machine σ α)

@[simp]
theorem follow_nil (s : σ) : machine.follow s [] = s := by
  rfl

theorem follow_append (s : σ) (front behind : List α) :
    machine.follow s (front ++ behind) = machine.follow (machine.follow s front) behind := by
  apply List.foldl_append

theorem follow_concat (s : σ) (acts : List α) (act : α) :
    machine.follow s (acts ++ [act]) = machine.next (machine.follow s acts) act := by
  rw [follow_append]
  rfl

theorem admits_append_iff {s : σ} {front behind : List α} :
    machine.Admits s (front ++ behind)
      ↔
    machine.Admits s front ∧ machine.Admits (machine.follow s front) behind := by
  induction front generalizing s with
  | nil => simp [Admits, follow]
  | cons act front ih =>
    rw [List.cons_append, Admits, ih, Admits, and_assoc]
    rfl

variable {machine}

theorem admits_of_forall {acts : List α} (h : ∀ act ∈ acts, ∀ s, machine.Enabled s act) (s : σ) :
    machine.Admits s acts := by
  induction acts generalizing s with
  | nil => trivial
  | cons act acts ih =>
    rw [List.forall_mem_cons] at h
    exact ⟨h.1 s, ih h.2 _⟩

theorem run_induction {P : List α → σ → Prop} {s : σ} {acts : List α} (hnil : P [] s)
    (hconcat : ∀ acts act, machine.Admits s acts → P acts (machine.follow s acts) →
      machine.Enabled (machine.follow s acts) act →
      P (acts ++ [act]) (machine.next (machine.follow s acts) act))
    (hadmits : machine.Admits s acts) : P acts (machine.follow s acts) := by
  induction acts using List.reverseRecOn with
  | nil => exact hnil
  | append_singleton acts act ih =>
    rw [admits_append_iff] at hadmits
    rw [follow_concat]
    exact hconcat acts act hadmits.1 (ih hadmits.1) hadmits.2.1

theorem keeps {P : σ → Prop} {s : σ} {acts : List α}
    (hnext : ∀ s act, P s → machine.Enabled s act → P (machine.next s act)) (h : P s)
    (hadmits : machine.Admits s acts) : P (machine.follow s acts) :=
  run_induction (P := fun _ later => P later) h
    (fun _ act _ h henabled => hnext _ act h henabled) hadmits

/--
If there is always an act that brings the end nearer, the end can be reached.
-/
theorem exists_run {P done : σ → Prop} {allowed : α → Prop} (measure : σ → Nat) {s : σ}
    (hnext : ∀ s, P s → ¬ done s → ∃ act, allowed act ∧ machine.Enabled s act ∧
      P (machine.next s act) ∧ measure (machine.next s act) < measure s)
    (h : P s) :
    ∃ acts, (∀ act ∈ acts, allowed act) ∧ machine.Admits s acts ∧
      P (machine.follow s acts) ∧ done (machine.follow s acts) := by
  -- Each act leads to a state with a smaller measure.
  by_cases hdone : done s
  . exact ⟨[], by simp, trivial, h, hdone⟩
  . rcases hnext s h hdone with ⟨act, hallowed, henabled, hkept, hlt⟩
    rcases exists_run measure hnext hkept with ⟨acts, hothers, hadmits, hend⟩
    refine ⟨act :: acts, ?_, ⟨henabled, hadmits⟩, hend⟩
    rw [List.forall_mem_cons]
    exact ⟨hallowed, hothers⟩
termination_by measure s

/--
Whether an act happens at a moment when what has happened before is as stated.
-/
def Occurs (acts : List α) (act : α) (before : List α → Prop) : Prop :=
  ∃ front behind, acts = front ++ act :: behind ∧ before front

theorem Occurs.concat {acts : List α} {act : α} {before : List α → Prop}
    (h : Occurs acts act before) (other : α) : Occurs (acts ++ [other]) act before := by
  rcases h with ⟨front, behind, rfl, hbefore⟩
  exact ⟨front, behind ++ [other], by simp, hbefore⟩

/--
Whether something is true of each act of a run and the state in which it happens.
-/
def Throughout (machine : Machine σ α) (P : σ → α → Prop) (s : σ) (acts : List α) : Prop :=
  ∀ front act behind, acts = front ++ act :: behind → P (machine.follow s front) act

theorem Throughout.front {P : σ → α → Prop} {s : σ} {front behind : List α}
    (h : machine.Throughout P s (front ++ behind)) : machine.Throughout P s front := by
  rintro earlier act later rfl
  exact h earlier act (later ++ behind) (by simp)

end Machine

end Zeroconf
