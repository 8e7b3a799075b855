import Mathlib.Data.List.Infix
import Mathlib.Data.List.TakeWhile
import Zeroconf.Text.Space

/-!
This module contains how texts are cut: at a character, into lines, and into fields. Everything is
stated for texts that are put together from known pieces.
-/

namespace Zeroconf.Text

theorem takeWhile_append {p : Char → Bool} {front back : List Char}
    (hfront : ∀ c ∈ front, p c = true) (hback : ∀ c ∈ back.head?, p c = false) :
    (front ++ back).takeWhile p = front := by
  rw [List.takeWhile_append_of_pos hfront]
  cases back with
  | nil => simp
  | cons c back => simp [hback c rfl]

theorem dropWhile_append {p : Char → Bool} {front back : List Char}
    (hfront : ∀ c ∈ front, p c = true) (hback : ∀ c ∈ back.head?, p c = false) :
    (front ++ back).dropWhile p = back := by
  rw [List.dropWhile_append_of_pos hfront]
  cases back with
  | nil => rfl
  | cons c back => simp [hback c rfl]

theorem head?_dropWhile (p : Char → Bool) (cs : List Char) :
    ∀ c ∈ (cs.dropWhile p).head?, p c = false := by
  intro c hc
  have h := List.head?_dropWhile_not p cs
  rw [hc] at h
  exact h

/-!
Pieces between separators.
-/

theorem splitAll_eq_splitOnP (p : Char → Bool) (cs : List Char) :
    splitAll p cs = cs.splitOnP p := by
  induction cs with
  | nil => rfl
  | cons c cs ih =>
    rw [splitAll, ih, List.splitOnP_cons_eq_if_modifyHead]
    split
    . rfl
    . rcases List.exists_cons_of_ne_nil (List.splitOnP_ne_nil p cs) with ⟨piece, pieces, hpieces⟩
      rw [hpieces]
      rfl

theorem intercalate_splitAll (separator : Char) (cs : List Char) :
    [separator].intercalate (splitAll (· == separator) cs) = cs := by
  rw [splitAll_eq_splitOnP, ← List.splitOn_eq_splitOnP, List.intercalate_splitOn]

theorem mem_intercalate {separator c : Char} {pieces : List (List Char)} {piece : List Char}
    (hpiece : piece ∈ pieces) (hc : c ∈ piece) : c ∈ [separator].intercalate pieces := by
  induction pieces with
  | nil => contradiction
  | cons first pieces ih =>
    cases pieces with
    | nil =>
      rw [List.mem_singleton] at hpiece
      rw [List.intercalate_singleton, ← hpiece]
      exact hc
    | cons next pieces =>
      rw [List.intercalate_cons_cons]
      rcases List.mem_cons.mp hpiece with rfl | hpiece
      . simp [hc]
      . simp [ih hpiece]

theorem mem_of_mem_splitAll {separator c : Char} {cs piece : List Char}
    (hpiece : piece ∈ splitAll (· == separator) cs) (hc : c ∈ piece) : c ∈ cs := by
  rw [← intercalate_splitAll separator cs]
  exact mem_intercalate hpiece hc

theorem not_mem_of_mem_splitAll {separator : Char} {cs piece : List Char}
    (hpiece : piece ∈ splitAll (· == separator) cs) : separator ∉ piece := by
  induction cs generalizing piece with
  | nil =>
    rw [List.mem_singleton.mp hpiece]
    exact List.not_mem_nil
  | cons c cs ih =>
    rw [splitAll] at hpiece
    split at hpiece
    . rcases List.mem_cons.mp hpiece with rfl | hpiece
      . exact List.not_mem_nil
      . exact ih hpiece
    . next hc =>
      have hne : separator ≠ c := by
        rintro rfl
        exact hc (beq_self_eq_true separator)
      split at hpiece
      . rw [List.mem_singleton.mp hpiece]
        simpa using hne
      . next first pieces hpieces =>
        rw [hpieces] at ih
        rcases List.mem_cons.mp hpiece with rfl | hpiece
        . simpa using ⟨hne, ih List.mem_cons_self⟩
        . exact ih (List.mem_cons_of_mem first hpiece)

theorem splitAll_of_not_mem {separator : Char} {cs : List Char} (h : separator ∉ cs) :
    splitAll (· == separator) cs = [cs] := by
  rw [splitAll_eq_splitOnP]
  refine List.splitOnP_eq_singleton fun c hc => ?_
  exact beq_eq_false_iff_ne.mpr (ne_of_mem_of_not_mem hc h)

theorem splitAll_append {separator : Char} {front back : List Char} (h : separator ∉ front) :
    splitAll (· == separator) (front ++ separator :: back)
      =
    front :: splitAll (· == separator) back := by
  rw [splitAll_eq_splitOnP, splitAll_eq_splitOnP]
  refine List.splitOnP_append_cons_of_forall_mem (fun c hc => ?_) separator ?_ back
  . exact beq_eq_false_iff_ne.mpr (ne_of_mem_of_not_mem hc h)
  . exact beq_self_eq_true separator

theorem splitFirst?_of_not_mem {separator : Char} {cs : List Char} (h : separator ∉ cs) :
    splitFirst? (· == separator) cs = none := by
  have hdrop : cs.dropWhile (fun c => !(c == separator)) = [] := by
    rw [List.dropWhile_eq_nil_iff]
    simpa using fun c hc => ne_of_mem_of_not_mem hc h
  rw [splitFirst?, hdrop]

theorem splitFirst?_append {separator : Char} {front back : List Char} (h : separator ∉ front) :
    splitFirst? (· == separator) (front ++ separator :: back) = some (front, back) := by
  have hfront : ∀ c ∈ front, (!(c == separator)) = true := by
    simpa using fun c hc => ne_of_mem_of_not_mem hc h
  have hback : ∀ c ∈ (separator :: back).head?, (!(c == separator)) = false := by
    simp
  rw [splitFirst?, takeWhile_append hfront hback, dropWhile_append hfront hback]

/-!
Lines.
-/

theorem lines_of_not_mem {line : List Char} (h : '\n' ∉ line) :
    lines line = if line = [] then [] else [line] := by
  unfold lines
  rw [splitAll_of_not_mem h]
  cases line <;> rfl

theorem lines_append {line rest : List Char} (h : '\n' ∉ line) :
    lines (line ++ '\n' :: rest) = lines.stripReturn line :: lines rest := by
  have hne : splitAll (· == '\n') rest ≠ [] := by
    rw [splitAll_eq_splitOnP]
    exact List.splitOnP_ne_nil _ rest
  unfold lines
  rw [splitAll_append h]
  dsimp only
  rw [List.dropLast_cons_of_ne_nil hne, List.getLast?_cons_of_ne_nil hne]
  split <;> rfl

theorem not_mem_stripReturn {line : List Char} (h : '\n' ∉ line) :
    '\n' ∉ lines.stripReturn line := by
  unfold lines.stripReturn
  split
  . exact fun hmem => h (List.mem_of_mem_dropLast hmem)
  . exact h

theorem not_mem_of_mem_lines {text line : List Char} (h : line ∈ lines text) : '\n' ∉ line := by
  have hended : ∀ line ∈ (splitAll (· == '\n') text).dropLast.map lines.stripReturn,
      '\n' ∉ line := by
    rw [List.forall_mem_map]
    intro piece hpiece
    exact not_mem_stripReturn (not_mem_of_mem_splitAll (List.mem_of_mem_dropLast hpiece))
  unfold lines at h
  dsimp only at h
  split at h
  . exact hended line h
  . exact hended line h
  . next last _ hlast =>
    rcases List.mem_append.mp h with h | h
    . exact hended line h
    . rw [List.mem_singleton.mp h]
      exact not_mem_of_mem_splitAll (List.mem_of_getLast? hlast)

/-!
Fields.
-/

theorem fields_blank {c : Char} (hc : isBlank c = true) (cs : List Char) :
    fields (c :: cs) = fields cs := by
  rw [fields, fields.go, if_pos hc]
  rfl

theorem fields_go_eq {piece : List Char} (hpiece : piece ≠ []) (cs : List Char) :
    fields.go piece cs
      =
    (piece.reverse ++ cs.takeWhile (!isBlank ·)) :: fields (cs.dropWhile (!isBlank ·)) := by
  have hnonempty : piece.isEmpty = false := by simpa using hpiece
  induction cs generalizing piece with
  | nil => simp [fields.go, fields, hnonempty]
  | cons c cs ih =>
    rw [fields.go]
    cases hc : isBlank c with
    | true =>
      rw [if_pos rfl, hnonempty, List.takeWhile_cons_of_neg (by simp [hc]),
        List.dropWhile_cons_of_neg (by simp [hc]), fields_blank hc, List.append_nil]
      rfl
    | false => simp [hc, ih (List.cons_ne_nil c piece)]

theorem fields_append {indent : List Char} (hindent : ∀ c ∈ indent, isBlank c = true)
    (cs : List Char) : fields (indent ++ cs) = fields cs := by
  induction indent with
  | nil => rfl
  | cons c indent ih =>
    rw [List.forall_mem_cons] at hindent
    rw [List.cons_append, fields_blank hindent.1, ih hindent.2]

theorem fields_of_blank {cs : List Char} (h : ∀ c ∈ cs, isBlank c = true) : fields cs = [] := by
  rw [← List.append_nil cs, fields_append h]
  rfl

def Ends (cs : List Char) : Prop := ∀ c ∈ cs.head?, isBlank c = true

structure IsWord (cs : List Char) : Prop where
  ne_nil : cs ≠ []
  not_blank : ∀ c ∈ cs, isBlank c = false

theorem fields_word {word behind : List Char} (hword : IsWord word) (hbehind : Ends behind) :
    fields (word ++ behind) = word :: fields behind := by
  rcases List.exists_cons_of_ne_nil hword.ne_nil with ⟨c, cs, rfl⟩
  have hcs : ∀ d ∈ cs, (!isBlank d) = true := by
    simpa using fun d hd => hword.not_blank d (List.mem_cons_of_mem c hd)
  have hback : ∀ d ∈ behind.head?, (!isBlank d) = false := by
    simpa [Ends] using hbehind
  have hc : isBlank c = false := hword.not_blank c List.mem_cons_self
  rw [List.cons_append, fields, fields.go, if_neg (by simp [hc]),
    fields_go_eq (List.cons_ne_nil c []), takeWhile_append hcs hback, dropWhile_append hcs hback]
  rfl

theorem fields_go_append_blank {c : Char} (hc : isBlank c = true) (piece cs : List Char) :
    fields.go piece (cs ++ [c]) = fields.go piece cs := by
  induction cs generalizing piece with
  | nil => cases piece <;> simp [fields.go, hc]
  | cons d cs ih =>
    rw [List.cons_append, fields.go, fields.go, ih, ih]

theorem fields_append_blank {c : Char} (hc : isBlank c = true) (cs : List Char) :
    fields (cs ++ [c]) = fields cs :=
  fields_go_append_blank hc [] cs

theorem blank_or_word (cs : List Char) :
    (∀ c ∈ cs, isBlank c = true) ∨
    ∃ indent word behind, (∀ c ∈ indent, isBlank c = true) ∧ IsWord word ∧ Ends behind ∧
      cs = indent ++ (word ++ behind) := by
  cases hrest : cs.dropWhile isBlank with
  | nil => exact .inl (List.dropWhile_eq_nil_iff.mp hrest)
  | cons c rest =>
    have hc : isBlank c = false := head?_dropWhile isBlank cs c (by rw [hrest]; rfl)
    refine .inr ⟨cs.takeWhile isBlank, (c :: rest).takeWhile (!isBlank ·),
      (c :: rest).dropWhile (!isBlank ·), fun d hd => List.mem_takeWhile_imp hd, ⟨?_, ?_⟩, ?_, ?_⟩
    . simp [hc]
    . intro d hd
      simpa using List.mem_takeWhile_imp hd
    . intro d hd
      simpa using head?_dropWhile (!isBlank ·) (c :: rest) d hd
    . rw [List.takeWhile_append_dropWhile, ← hrest, List.takeWhile_append_dropWhile]

/--
Whether `cs` consists of words with blanks around them.
-/
inductive Spaced : List Char → List (List Char) → Prop
  | nil {cs : List Char} (hblank : ∀ c ∈ cs, isBlank c = true) : Spaced cs []
  | cons {indent word behind : List Char} {words : List (List Char)}
    (hindent : ∀ c ∈ indent, isBlank c = true) (hword : IsWord word) (hends : Ends behind)
    (hbehind : Spaced behind words) : Spaced (indent ++ (word ++ behind)) (word :: words)

theorem spaced_fields (cs : List Char) : Spaced cs (fields cs) := by
  induction hlength : cs.length using Nat.strongRecOn generalizing cs with
  | ind length ih =>
    rcases blank_or_word cs with hblank | ⟨indent, word, behind, hindent, hword, hends, rfl⟩
    . rw [fields_of_blank hblank]
      exact .nil hblank
    . have hshorter : behind.length < length := by
        have := List.length_pos_iff.mpr hword.ne_nil
        simp only [List.length_append] at hlength
        omega
      rw [fields_append hindent, fields_word hword hends]
      exact .cons hindent hword hends (ih behind.length hshorter behind rfl)

theorem fields_eq_iff {cs : List Char} {words : List (List Char)} :
    fields cs = words ↔ Spaced cs words := by
  constructor
  . rintro rfl
    exact spaced_fields cs
  . intro h
    induction h with
    | nil hblank => exact fields_of_blank hblank
    | cons hindent hword hends hbehind ih =>
      rw [fields_append hindent, fields_word hword hends, ih]

end Zeroconf.Text
