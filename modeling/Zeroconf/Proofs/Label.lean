import Zeroconf.Label
import Zeroconf.Proofs.Text.Ascii

/-!
This module contains the proof that the reader of presentation text takes the text of a label for
this label, whatever its bytes are and whatever follows.
-/

namespace Zeroconf.Label

theorem isDigit_decimalDigit (n : Nat) : Ascii.isDigit (decimalDigit n) = true := by
  have hdigit : ∀ n < 10, Ascii.isDigit (0x30 + n).toUInt8 = true := by decide
  unfold decimalDigit
  apply hdigit
  omega

theorem digit_decimalDigit (n : Nat) : Ascii.digit (decimalDigit n) = n % 10 := by
  have hdigit : ∀ n < 10, Ascii.digit (0x30 + n).toUInt8 = n := by decide
  unfold decimalDigit
  apply hdigit
  omega

theorem lt_of_mem_escapeByte {b c : UInt8} (h : c ∈ escapeByte b) : c < 0x80 := by
  have hall : (escapeByte b).all (· < 0x80) = true := by
    apply Ascii.forall_byte (p := fun b => (escapeByte b).all (· < 0x80) = true)
    decide +kernel
  simpa using List.all_eq_true.mp hall c h

theorem lt_of_mem_escape {label : Label} {c : UInt8} (h : c ∈ label.escape) : c < 0x80 := by
  rcases List.mem_flatMap.mp h with ⟨b, -, hc⟩
  exact lt_of_mem_escapeByte hc

theorem not_isDigit_of_isSpecial {b : UInt8} (h : isSpecial b = true) :
    Ascii.isDigit b = false := by
  revert h
  apply Ascii.forall_byte (p := fun b => isSpecial b = true → Ascii.isDigit b = false)
  decide +kernel

theorem readItem_dot (rest : List UInt8) : readItem (Ascii.byte '.') rest = .ok (.dot, rest) := by
  simp [readItem]

theorem readItem_plain {b : UInt8} (hdot : b ≠ Ascii.byte '.') (hescape : b ≠ Ascii.byte '\\')
    (rest : List UInt8) : readItem b rest = .ok (.byte b, rest) := by
  simp [readItem, hdot, hescape]

theorem readItem_escaped {x : UInt8} (h : Ascii.isDigit x = false) (rest : List UInt8) :
    readItem (Ascii.byte '\\') (x :: rest) = .ok (.byte x, rest) := by
  have hdot : Ascii.byte '\\' ≠ Ascii.byte '.' := by decide
  simp [readItem, hdot, h]

theorem readItem_decimal {x y z : UInt8} (hx : Ascii.isDigit x = true)
    (hy : Ascii.isDigit y = true) (hz : Ascii.isDigit z = true)
    (hvalue : Ascii.digit x * 100 + Ascii.digit y * 10 + Ascii.digit z ≤ 0xFF)
    (rest : List UInt8) :
    readItem (Ascii.byte '\\') (x :: y :: z :: rest)
      =
    .ok (.byte (Ascii.digit x * 100 + Ascii.digit y * 10 + Ascii.digit z).toUInt8, rest) := by
  have hdot : Ascii.byte '\\' ≠ Ascii.byte '.' := by decide
  simp [readItem, hdot, hx, hy, hz, Nat.not_lt.mpr hvalue]

theorem readItem_escapeByte (b : UInt8) (rest : List UInt8) :
    ∃ first behind, escapeByte b ++ rest = first :: behind ∧
      readItem first behind = .ok (.byte b, rest) := by
  unfold escapeByte
  split
  . have hb := b.toNat_lt
    have hvalue : b.toNat / 100 % 10 * 100 + b.toNat / 10 % 10 * 10 + b.toNat % 10 = b.toNat := by
      omega
    refine ⟨_, _, List.cons_append, ?_⟩
    rw [List.cons_append, List.cons_append, List.cons_append, List.nil_append, readItem_decimal]
    . simp only [digit_decimalDigit, hvalue]
      simp
    . apply isDigit_decimalDigit
    . apply isDigit_decimalDigit
    . apply isDigit_decimalDigit
    . simp only [digit_decimalDigit]
      omega
  . split
    . next hspecial =>
      refine ⟨_, _, List.cons_append, ?_⟩
      apply readItem_escaped
      exact not_isDigit_of_isSpecial hspecial
    . next hspecial =>
      -- The dot and the backslash are special, so that `b` is neither of them.
      refine ⟨_, _, List.cons_append, ?_⟩
      apply readItem_plain
      . intro hdot
        apply hspecial
        rw [hdot]
        decide
      . intro hescape
        apply hspecial
        rw [hescape]
        decide

theorem go_cons_byte {label : Label} {b value : UInt8} {rest behind : List UInt8}
    (h : readItem b rest = .ok (.byte value, behind)) (hlabel : label.length < maxLength) :
    readLabels.go label (b :: rest) = readLabels.go (label ++ [value]) behind := by
  rw [readLabels.go]
  split
  . next heq => simp [h] at heq
  . next heq => simp [h] at heq
  . next heq =>
    rw [h, Except.ok.injEq, Prod.mk.injEq, Item.byte.injEq] at heq
    rw [if_neg (by omega), heq.1, heq.2]

theorem go_cons_dot {label : Label} (h : label ≠ []) (rest : List UInt8) :
    readLabels.go label (Ascii.byte '.' :: rest)
      =
    (readLabels.go [] rest).map (label :: ·) := by
  rw [readLabels.go]
  split
  . next heq => simp [readItem_dot] at heq
  . next heq =>
    rw [readItem_dot, Except.ok.injEq, Prod.mk.injEq] at heq
    rw [if_neg (by simpa using h), heq.2]
  . next heq => simp [readItem_dot] at heq

theorem go_nil_dot (rest : List UInt8) :
    readLabels.go [] (Ascii.byte '.' :: rest) = .error .emptyLabel := by
  rw [readLabels.go]
  split
  . next heq => simp [readItem_dot] at heq
  . rfl
  . next heq => simp [readItem_dot] at heq

theorem go_escape {front label : Label} (h : front.length + label.length ≤ maxLength)
    (rest : List UInt8) :
    readLabels.go front (label.escape ++ rest) = readLabels.go (front ++ label) rest := by
  -- The bytes that were read before are general, as they grow with each byte of the label.
  induction label generalizing front with
  | nil => simp [escape]
  | cons b label ih =>
    rw [List.length_cons] at h
    rcases readItem_escapeByte b (escape label ++ rest) with ⟨first, behind, htext, hitem⟩
    have htext : escape (b :: label) ++ rest = first :: behind := by
      rw [← htext, escape, List.flatMap_cons, List.append_assoc, escape]
    rw [htext, go_cons_byte hitem (by omega), ih]
    . simp
    . rw [List.length_append, List.length_singleton]
      omega

theorem go_fits {front : Label} {text : List UInt8} {labels : List Label}
    (h : readLabels.go front text = .ok labels) (hfront : front.length ≤ maxLength) :
    ∀ label ∈ labels, label.Fits := by
  fun_induction readLabels.go front text generalizing labels with
  | case1 front =>
    rw [Except.ok.injEq] at h
    subst h
    unfold Fits
    cases front with
    | nil => simp
    | cons b front => simpa using hfront
  | case2 => contradiction
  | case3 => contradiction
  | case4 front b rest behind hitem _ hempty ih =>
    cases hbehind : readLabels.go [] behind with
    | error fault => simp [hbehind, Except.map] at h
    | ok others =>
      rw [hbehind, Except.map, Except.ok.injEq] at h
      have := ih hbehind (Nat.zero_le _)
      have hfits : Fits front := by
        refine ⟨?_, hfront⟩
        rw [List.length_pos_iff]
        simpa using hempty
      rw [← h]
      simpa [hfits] using this
  | case5 => contradiction
  | case6 front b rest value behind hitem _ hshort ih =>
    apply ih h
    rw [List.length_append, List.length_singleton]
    omega

theorem readLabels_fits {text : List UInt8} {labels : List Label}
    (h : readLabels text = .ok labels) : ∀ label ∈ labels, label.Fits := by
  exact go_fits h (Nat.zero_le _)

theorem parseAll_of_readLabels {text : List UInt8} {labels : List Label}
    (h : readLabels text = .ok labels) : parseAll text = .ok labels := by
  have hdot : readLabels [Ascii.byte '.'] = .error .emptyLabel := by apply go_nil_dot
  unfold parseAll
  split
  . next heq =>
    rw [beq_iff_eq] at heq
    rw [heq, hdot] at h
    contradiction
  . exact h

theorem parseAll_fits {text : List UInt8} {labels : List Label} (h : parseAll text = .ok labels) :
    ∀ label ∈ labels, label.Fits := by
  unfold parseAll at h
  split at h
  . rw [Except.ok.injEq] at h
    simp [← h]
  . exact readLabels_fits h

end Zeroconf.Label
