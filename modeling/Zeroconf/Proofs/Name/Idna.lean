import Zeroconf.Name.Idna
import Zeroconf.Proofs.Text.Space

/-!
This module contains the proof that the ASCII form of a text that is ASCII already is this text in
lower case, if the text has such a form at all.
-/

namespace Zeroconf.Name.Idna

theorem eq_map_of_mapM {α β : Type} {f : α → Option β} {g : α → β} {items : List α} {found : List β}
    (hf : ∀ item ∈ items, ∀ value, f item = some value → value = g item)
    (h : items.mapM f = some found) : found = items.map g := by
  induction items generalizing found with
  | nil =>
    simp at h
    simp [h]
  | cons item items ih =>
    rw [List.mapM_cons] at h
    rcases Option.bind_eq_some_iff.mp h with ⟨value, hvalue, h⟩
    rcases Option.bind_eq_some_iff.mp h with ⟨values, hvalues, h⟩
    have hvalue := hf item (by simp) value hvalue
    have hvalues := ih (fun other hother => hf other (by simp [hother])) hvalues
    cases h
    rw [hvalue, hvalues, List.map_cons]

theorem fold?_eq_of_isAscii {c : Char} (hc : Text.Punycode.isAscii c = true) {text : List Char}
    (h : fold? c = some text) : text = [c.toLower] := by
  unfold fold? at h
  rw [if_pos hc] at h
  split at h
  . exact (Option.some.inj h).symm
  . contradiction

theorem encodeLabel?_eq_of_isAscii {label : List Char}
    (hlabel : ∀ c ∈ label, Text.Punycode.isAscii c = true) {ascii : List Char}
    (h : encodeLabel? label = some ascii) : ascii = label := by
  unfold encodeLabel? at h
  split at h
  . -- A label that claims to be encoded is only checked.
    grind
  . rw [if_pos (by simpa using hlabel)] at h
    exact (Option.some.inj h).symm

theorem isAscii_toLower {c : Char} (h : Text.Punycode.isAscii c = true) :
    Text.Punycode.isAscii c.toLower = true := by
  have hall : ∀ n < 0x80, Text.Punycode.isAscii (Char.ofNat n).toLower = true := by decide +kernel
  have hc := hall c.toNat (by simpa [Text.Punycode.isAscii] using h)
  rwa [Char.ofNat_toNat] at hc

theorem toAscii?_eq_of_isAscii {text : List Char}
    (htext : ∀ c ∈ text, Text.Punycode.isAscii c = true) {ascii : List Char}
    (h : toAscii? text = some ascii) : ascii = text.map Char.toLower := by
  rcases Option.bind_eq_some_iff.mp h with ⟨folded, hfolded, h⟩
  rcases Option.bind_eq_some_iff.mp h with ⟨labels, hlabels, h⟩
  have hfolded : folded.flatten = text.map Char.toLower := by
    have hmap : folded = text.map fun c => [c.toLower] := by
      apply eq_map_of_mapM _ hfolded
      intro c hc piece
      exact fold?_eq_of_isAscii (htext c hc)
    rw [hmap, ← List.flatMap_def, List.map_eq_flatMap]
  rw [hfolded] at hlabels
  have hlabels : labels = Text.splitAll (· == '.') (text.map Char.toLower) := by
    rw [← List.map_id (Text.splitAll _ _)]
    apply eq_map_of_mapM _ hlabels
    intro label hlabel piece
    apply encodeLabel?_eq_of_isAscii
    intro c hc
    rcases List.mem_map.mp (Text.mem_of_mem_splitAll hlabel hc) with ⟨d, hd, rfl⟩
    exact isAscii_toLower (htext d hd)
  rw [← Option.some.inj h, hlabels, Text.intercalate_splitAll]

end Zeroconf.Name.Idna
