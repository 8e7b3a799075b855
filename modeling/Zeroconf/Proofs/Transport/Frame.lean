import Mathlib.Data.List.Basic
import Zeroconf.Transport.Frame

/-!
This module contains the proof that a message which was put into a frame is taken out of it again,
and that a stream is split into the same frames wherever it is cut while it arrives.
-/

namespace Zeroconf.Transport.Frame

theorem exists_encode_eq {payload : List UInt8} (h : payload.length ≤ maxLength) :
    ∃ frame, encode? payload = some frame := by
  exact ⟨_, if_pos h⟩

theorem length_bytes {count : Nat} (h : count ≤ maxLength) :
    length (count / 0x100).toUInt8 count.toUInt8 = count := by
  unfold maxLength at h
  have hhigh : (count / 0x100).toUInt8.toNat = count / 0x100 % 0x100 := by simp
  have hlow : count.toUInt8.toNat = count % 0x100 := by simp
  rw [length, hhigh, hlow]
  omega

theorem drain_append {payload frame : List UInt8} (h : encode? payload = some frame)
    (rest : List UInt8) :
    drain (frame ++ rest) = (payload :: (drain rest).1, (drain rest).2) := by
  unfold encode? at h
  split at h
  . next hlength =>
    injection h with h
    subst h
    rw [List.cons_append, List.cons_append, drain]
    simp only [length_bytes hlength, List.take_left, List.drop_left, if_true]
  . contradiction

/--
How bytes consist of the frames of messages and a rest that does not begin with a complete frame.
-/
inductive Splits : List UInt8 → List (List UInt8) → List UInt8 → Prop where
  | rest {rest : List UInt8}
    (h : ∀ payload frame, encode? payload = some frame → ¬ frame <+: rest) :
    Splits rest [] rest
  | frame {payload frame bytes rest : List UInt8} {frames : List (List UInt8)}
    (h : encode? payload = some frame) (others : Splits bytes frames rest) :
    Splits (frame ++ bytes) (payload :: frames) rest

theorem Splits.append {bytes more left rest : List UInt8} {frames others : List (List UInt8)}
    (h : Splits bytes frames left) (hmore : Splits (left ++ more) others rest) :
    Splits (bytes ++ more) (frames ++ others) rest := by
  induction h with
  | rest => exact hmore
  | frame hencode _ ih =>
    rw [List.append_assoc]
    exact .frame hencode (ih hmore)

theorem length_le (high low : UInt8) : length high low ≤ maxLength := by
  have hhigh := high.toNat_lt
  have hlow := low.toNat_lt
  unfold length maxLength
  omega

theorem encode_eq_of_length_eq {high low : UInt8} {payload : List UInt8}
    (h : payload.length = length high low) : encode? payload = some (high :: low :: payload) := by
  have hlow := low.toNat_lt
  have hhighByte : (length high low / 0x100).toUInt8 = high := by
    have hdiv : length high low / 0x100 = high.toNat := by
      unfold length
      omega
    rw [hdiv]
    exact UInt8.ofNat_toNat
  have hlowByte : (length high low).toUInt8 = low := by
    apply UInt8.toNat.inj
    have hmod : length high low % 0x100 = low.toNat := by
      unfold length
      omega
    simpa using hmod
  unfold encode?
  rw [h, if_pos (length_le high low), hhighByte, hlowByte]

theorem splits_drain (bytes : List UInt8) : Splits bytes (drain bytes).1 (drain bytes).2 := by
  fun_induction drain bytes with
  | case1 high low rest payload hlength frames left hdrain ih =>
    rw [hdrain] at ih
    have hframe := Splits.frame (encode_eq_of_length_eq hlength) ih
    simpa [payload] using hframe
  | case2 high low rest payload hlength =>
    apply Splits.rest
    rintro other frame hencode hprefix
    unfold encode? at hencode
    split at hencode
    . next hle =>
      injection hencode with hencode
      subst hencode
      -- The first two bytes tell the length of the frame, which is not there in full.
      rcases hprefix with ⟨more, heq⟩
      simp only [List.cons_append, List.cons.injEq] at heq
      rcases heq with ⟨hhigh, hlow, rfl⟩
      apply hlength
      simp only [payload, ← hhigh, ← hlow, length_bytes hle, List.take_left]
    . contradiction
  | case3 bytes hshort =>
    apply Splits.rest
    rintro other frame hencode ⟨more, heq⟩
    unfold encode? at hencode
    split at hencode
    . injection hencode with hencode
      subst hencode
      exact hshort _ _ _ heq.symm
    . contradiction

theorem drain_of_forall_not_prefix {rest : List UInt8}
    (h : ∀ payload frame, encode? payload = some frame → ¬ frame <+: rest) :
    drain rest = ([], rest) := by
  have hsplits := splits_drain rest
  rcases hdrain : drain rest with ⟨frames, left⟩
  rw [hdrain] at hsplits
  cases hsplits with
  | rest => rfl
  | frame hencode => exact absurd ⟨_, rfl⟩ (h _ _ hencode)

/--
There is one way to split bytes, and it is the one that is found.
-/
theorem splits_iff {bytes rest : List UInt8} {frames : List (List UInt8)} :
    Splits bytes frames rest ↔ drain bytes = (frames, rest) := by
  constructor
  . intro h
    induction h with
    | rest h => exact drain_of_forall_not_prefix h
    | frame hencode _ ih => rw [drain_append hencode, ih]
  . intro h
    have hsplits := splits_drain bytes
    rwa [h] at hsplits

theorem drain_append_bytes (bytes more : List UInt8) :
    drain (bytes ++ more)
      =
    ((drain bytes).1 ++ (drain ((drain bytes).2 ++ more)).1,
      (drain ((drain bytes).2 ++ more)).2) := by
  apply splits_iff.mp
  exact (splits_drain bytes).append (splits_drain _)

end Zeroconf.Transport.Frame
