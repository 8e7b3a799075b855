import Mathlib.Algebra.GroupWithZero.Nat
import Zeroconf.Name

/-!
This module contains the proof that labels make up a name exactly if each of them may stand in a
message and all of them together take no more than a message has room for.
-/

namespace Zeroconf

@[simp]
theorem mapError_ok {α ε δ : Type} (value : α) (f : ε → δ) :
    (Except.ok value : Except ε α).mapError f = .ok value := by
  rfl

@[simp]
theorem mapError_error {α ε δ : Type} (fault : ε) (f : ε → δ) :
    (Except.error fault : Except ε α).mapError f = .error (f fault) := by
  rfl

theorem mapError_eq_ok_iff {α ε δ : Type} {result : Except ε α} {f : ε → δ} {value : α} :
    result.mapError f = .ok value ↔ result = .ok value := by
  cases result <;> simp

theorem mapError_eq_error_iff {α ε δ : Type} {result : Except ε α} {f : ε → δ} {fault : δ} :
    result.mapError f = .error fault ↔ ∃ first, result = .error first ∧ f first = fault := by
  cases result <;> simp

theorem map_eq_ok_iff {α β ε : Type} {result : Except ε α} {f : α → β} {value : β} :
    result.map f = .ok value ↔ ∃ first, result = .ok first ∧ f first = value := by
  cases result <;> simp [Except.map]

theorem bind_eq_ok_iff {α β ε : Type} {result : Except ε α} {f : α → Except ε β} {value : β} :
    (result >>= f) = .ok value ↔ ∃ first, result = .ok first ∧ f first = .ok value := by
  cases result <;> simp [bind, Except.bind]

end Zeroconf

namespace Zeroconf.Name

def Fits (name : Name) : Prop :=
  (∀ label ∈ name.labels, label.Fits) ∧ wireLength name.labels ≤ maxWireLength

theorem wireLength_eq_sum (labels : List Label) :
    wireLength labels = (labels.map fun label => label.length + 1).sum + 1 := by
  unfold wireLength
  induction labels with
  | nil => rfl
  | cons label labels ih =>
    simp only [List.flatten_cons, List.length_append, List.length_cons, List.map_cons,
      List.sum_cons]
    omega

theorem wireLength_append (front labels : List Label) :
    wireLength (front ++ labels) + 1 = wireLength front + wireLength labels := by
  simp only [wireLength, List.flatten_append, List.length_append]
  omega

theorem wireLength_pos (labels : List Label) : 1 ≤ wireLength labels := by
  unfold wireLength
  omega

theorem length_lt_wireLength (labels : List Label) : labels.length < wireLength labels := by
  unfold wireLength
  omega

theorem extend_eq_ok_iff {labels more : List Label} {label : Label} :
    extend labels label = .ok more
      ↔
    more = labels ++ [label] ∧ wireLength (labels ++ [label]) ≤ maxWireLength := by
  unfold extend
  dsimp only
  split
  . next h => simp [h]
  . next h =>
    rw [Except.ok.injEq, eq_comm]
    simpa using fun _ => Nat.not_lt.mp h

theorem foldlM_extend_of_le {front labels : List Label}
    (h : wireLength (front ++ labels) ≤ maxWireLength) :
    labels.foldlM extend front = .ok (front ++ labels) := by
  induction labels generalizing front with
  | nil => simp [pure, Except.pure]
  | cons label labels ih =>
    have hsplit : front ++ label :: labels = front ++ [label] ++ labels := by simp
    rw [hsplit] at h ⊢
    have hstep : extend front label = .ok (front ++ [label]) := by
      have := wireLength_append (front ++ [label]) labels
      have := wireLength_pos labels
      rw [extend_eq_ok_iff]
      exact ⟨rfl, by omega⟩
    rw [List.foldlM_cons, hstep]
    exact ih h

theorem foldlM_extend_of_lt {front labels : List Label} (hfront : wireLength front ≤ maxWireLength)
    (h : maxWireLength < wireLength (front ++ labels)) :
    ∃ length, maxWireLength < length ∧ labels.foldlM extend front = .error (.tooLong length) := by
  -- The limit is passed at the first label that does not fit any more.
  induction labels generalizing front with
  | nil =>
    rw [List.append_nil] at h
    omega
  | cons label labels ih =>
    rw [List.foldlM_cons]
    by_cases hstep : wireLength (front ++ [label]) > maxWireLength
    . refine ⟨_, hstep, ?_⟩
      unfold extend
      dsimp
      rw [if_pos hstep]
      rfl
    . have hstep : extend front label = .ok (front ++ [label]) := by
        rw [extend_eq_ok_iff]
        exact ⟨rfl, Nat.not_lt.mp hstep⟩
      rw [hstep]
      apply ih
      . omega
      . simpa using h

theorem ofLabels_of_le {labels : List Label} (hlabels : ∀ label ∈ labels, label.Fits)
    (h : wireLength labels ≤ maxWireLength) : ofLabels labels = .ok ⟨labels, true⟩ := by
  have := length_lt_wireLength labels
  unfold ofLabels
  rw [if_neg (by omega), if_pos (by simpa using hlabels), foldlM_extend_of_le (by simpa using h)]
  rfl

theorem ofLabels_of_lt {labels : List Label} (hlabels : ∀ label ∈ labels, label.Fits)
    (h : maxWireLength < wireLength labels) :
    ∃ length, maxWireLength < length ∧ ofLabels labels = .error (.tooLong length) := by
  unfold ofLabels
  split
  . next hcount => exact ⟨_, hcount, rfl⟩
  . rw [if_pos (by simpa using hlabels)]
    have hempty : wireLength [] ≤ maxWireLength := by decide
    rcases foldlM_extend_of_lt hempty h with ⟨length, hlength, hfold⟩
    refine ⟨length, hlength, ?_⟩
    rw [hfold]
    rfl

theorem ofLabels_eq_ok_iff {labels : List Label} {name : Name} :
    ofLabels labels = .ok name ↔ name = ⟨labels, true⟩ ∧ name.Fits := by
  constructor
  . intro h
    have hlabels : ∀ label ∈ labels, label.Fits := by
      unfold ofLabels at h
      split at h
      . contradiction
      . split at h
        . next hall => simpa using hall
        . contradiction
    by_cases hlength : wireLength labels ≤ maxWireLength
    . rw [ofLabels_of_le hlabels hlength, Except.ok.injEq] at h
      rw [← h]
      exact ⟨rfl, hlabels, hlength⟩
    . rcases ofLabels_of_lt hlabels (by omega) with ⟨length, -, herror⟩
      rw [herror] at h
      contradiction
  . rintro ⟨rfl, hlabels, hlength⟩
    exact ofLabels_of_le hlabels hlength

end Zeroconf.Name
