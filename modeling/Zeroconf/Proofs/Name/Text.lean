import Zeroconf.Name
import Zeroconf.Proofs.Label

/-!
This module contains the proof that labels are read back from their presentation text, with or
without a dot at its end.
-/

namespace Zeroconf.Name

theorem lt_of_mem_dotted {labels : List Label} {c : UInt8} (h : c ∈ dotted labels) : c < 0x80 := by
  rcases List.mem_flatMap.mp h with ⟨label, -, hc⟩
  rcases List.mem_append.mp hc with hc | hc
  . exact Label.lt_of_mem_escape hc
  . rw [List.mem_singleton] at hc
    rw [hc]
    decide

theorem dotted_cons (label : Label) (labels : List Label) :
    dotted (label :: labels) = label.escape ++ Ascii.byte '.' :: dotted labels := by
  simp [dotted]

theorem joined_concat (labels : List Label) (last : Label) :
    joined (labels ++ [last]) = dotted labels ++ last.escape := by
  induction labels with
  | nil => simp [joined, dotted]
  | cons label labels ih =>
    unfold joined at ih ⊢
    rw [List.cons_append, dotted_cons, List.append_assoc, List.cons_append, ← ih]
    cases labels with
    | nil => simp [List.intercalate]
    | cons next labels => simp [List.intercalate]

theorem dotted_eq_joined (labels : List Label) (h : labels ≠ []) :
    dotted labels = joined labels ++ [Ascii.byte '.'] := by
  rcases List.eq_nil_or_concat labels with hnil | ⟨front, last, hconcat⟩
  . contradiction
  . rw [hconcat, List.concat_eq_append, joined_concat]
    simp [dotted]

theorem lt_of_mem_joined {labels : List Label} {c : UInt8} (h : c ∈ joined labels) : c < 0x80 := by
  cases labels with
  | nil => simp [joined] at h
  | cons label labels =>
    apply lt_of_mem_dotted
    rw [dotted_eq_joined (label :: labels) (by simp)]
    exact List.mem_append_left _ h

theorem go_dotted {labels : List Label} (h : ∀ label ∈ labels, label.Fits) (rest : List UInt8) :
    Label.readLabels.go [] (dotted labels ++ rest)
      =
    (Label.readLabels.go [] rest).map (labels ++ ·) := by
  induction labels with
  | nil =>
    simp only [dotted, List.flatMap_nil, List.nil_append]
    cases Label.readLabels.go [] rest <;> rfl
  | cons label labels ih =>
    have hlabel := h label (by simp)
    have hlabels := ih fun other hother => h other (by simp [hother])
    rw [dotted_cons, List.append_assoc, List.cons_append, Label.go_escape, List.nil_append,
      Label.go_cons_dot, hlabels]
    . cases Label.readLabels.go [] rest <;> rfl
    . exact List.length_pos_iff.mp hlabel.1
    . simpa using hlabel.2

theorem readLabels_dotted {labels : List Label} (h : ∀ label ∈ labels, label.Fits) :
    Label.readLabels (dotted labels) = .ok labels := by
  have hend : Label.readLabels.go [] [] = .ok [] := by
    rw [Label.readLabels.go]
    rfl
  have := go_dotted h []
  rw [List.append_nil, hend] at this
  simpa [Label.readLabels, Except.map] using this

theorem readLabels_joined {labels : List Label} (h : ∀ label ∈ labels, label.Fits) :
    Label.readLabels (joined labels) = .ok labels := by
  rcases List.eq_nil_or_concat labels with hnil | ⟨front, last, hconcat⟩
  . rw [hnil]
    have hread : Label.readLabels (dotted []) = .ok [] := readLabels_dotted (by simp)
    exact hread
  . rw [List.concat_eq_append] at hconcat
    rw [hconcat] at h ⊢
    have hlast := h last (by simp)
    have hend : Label.readLabels.go [] last.escape = .ok [last] := by
      have hescape : Label.readLabels.go [] (last.escape ++ []) = Label.readLabels.go last [] := by
        apply Label.go_escape
        simpa using hlast.2
      rw [List.append_nil] at hescape
      rw [hescape, Label.readLabels.go, if_neg]
      have := List.length_pos_iff.mp hlast.1
      simpa using this
    rw [joined_concat, Label.readLabels, go_dotted, hend]
    . rfl
    . intro label hlabel
      exact h label (by simp [hlabel])

theorem parseAll_text (name : Name) (h : ∀ label ∈ name.labels, label.Fits) :
    Label.parseAll (Ascii.bytes name.text) = .ok name.labels := by
  unfold text
  split
  . rw [Ascii.bytes_text]
    . exact Label.parseAll_of_readLabels (readLabels_joined h)
    . intro c
      exact lt_of_mem_joined
  . split
    . next hempty =>
      rw [List.isEmpty_iff] at hempty
      rw [hempty, Ascii.bytes_text]
      . rfl
      . simp
        decide
    . rw [Ascii.bytes_text]
      . exact Label.parseAll_of_readLabels (readLabels_dotted h)
      . intro c
        exact lt_of_mem_dotted

theorem text_joined_append_dot (labels : List Label) :
    Ascii.text (joined labels) ++ "." = (Name.mk labels true).text := by
  have hdot : Ascii.text [Ascii.byte '.'] = "." := by rfl
  rw [← hdot, ← Ascii.text_append]
  cases labels with
  | nil => rfl
  | cons label labels =>
    rw [← dotted_eq_joined (label :: labels) (by simp)]
    rfl

theorem labels_eq_of_text_eq {a b : Name} (ha : ∀ label ∈ a.labels, label.Fits)
    (hb : ∀ label ∈ b.labels, label.Fits) (h : a.text = b.text) : a.labels = b.labels := by
  have hread := parseAll_text a ha
  rw [h, parseAll_text b hb, Except.ok.injEq] at hread
  exact hread.symm

end Zeroconf.Name
