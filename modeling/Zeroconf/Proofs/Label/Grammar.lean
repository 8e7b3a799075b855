import Mathlib.Data.List.Forall2
import Zeroconf.Error
import Zeroconf.Proofs.Label
import Zeroconf.Proofs.Name.Wire
import Zeroconf.Proofs.Text.Ascii

/-!
This module contains the grammar of presentation text, and the proof that the reader takes just the
texts that belong to it. Any other text has a place up to which it could belong to the grammar and
at which it goes wrong.
-/

namespace Zeroconf.Label

/--
What may be written for a byte of a label.
-/
inductive Writes : List UInt8 → UInt8 → Prop where
  | plain {b : UInt8} (hdot : b ≠ Ascii.byte '.') (hescape : b ≠ Ascii.byte '\\') : Writes [b] b
  | escaped {b : UInt8} (h : Ascii.isDigit b = false) : Writes [Ascii.byte '\\', b] b
  | decimal {x y z : UInt8} (hx : Ascii.isDigit x = true) (hy : Ascii.isDigit y = true)
    (hz : Ascii.isDigit z = true)
    (hvalue : Ascii.digit x * 100 + Ascii.digit y * 10 + Ascii.digit z ≤ 0xFF) :
    Writes [Ascii.byte '\\', x, y, z]
      (Ascii.digit x * 100 + Ascii.digit y * 10 + Ascii.digit z).toUInt8

inductive Spells : List UInt8 → Label → Prop where
  | nil : Spells [] []
  | cons {item text : List UInt8} {b : UInt8} {label : Label} (first : Writes item b)
    (others : Spells text label) : Spells (item ++ text) (b :: label)

/--
Whether `text` is that of the label as a whole, which has at least one byte and not too many.
-/
def Presents (text : List UInt8) (label : Label) : Prop := Spells text label ∧ label.Fits

/--
The pieces between the dots that do not stand directly behind the backslash of an escape.
-/
def pieces : List UInt8 → List (List UInt8)
  | [] => [[]]
  | [b] => if b = Ascii.byte '.' then [[], []] else [[b]]
  | b :: c :: rest =>
    if b = Ascii.byte '.' then
      [] :: pieces (c :: rest)
    else if b = Ascii.byte '\\' then
      (pieces rest).modifyHead ([b, c] ++ ·)
    else
      (pieces (c :: rest)).modifyHead ([b] ++ ·)

/--
How a text begins that is neither an item nor a dot.
-/
inductive Breaks : List UInt8 → Fault → Prop where
  | range {x y z : UInt8} {rest : List UInt8} (hx : Ascii.isDigit x = true)
    (hy : Ascii.isDigit y = true) (hz : Ascii.isDigit z = true)
    (hvalue : 0xFF < Ascii.digit x * 100 + Ascii.digit y * 10 + Ascii.digit z) :
    Breaks (Ascii.byte '\\' :: x :: y :: z :: rest) (.escapeOutOfRange [x, y, z])
  | nothing : Breaks [Ascii.byte '\\'] .danglingEscape
  /-- There are one or two digits only. -/
  | digits {x : UInt8} {rest : List UInt8} (hx : Ascii.isDigit x = true)
    (hrest : ∀ y z behind, rest = y :: z :: behind →
      ¬ (Ascii.isDigit y = true ∧ Ascii.isDigit z = true)) :
    Breaks (Ascii.byte '\\' :: x :: rest) .danglingEscape

/--
How a text goes wrong whose reader stands in a label, of which he has read `label` so far.
-/
inductive Fails : Label → List UInt8 → Fault → Prop where
  | item {label : Label} {text : List UInt8} {fault : Fault} (h : Breaks text fault) :
    Fails label text fault
  | empty {rest : List UInt8} : Fails [] (Ascii.byte '.' :: rest) .emptyLabel
  | long {label : Label} {item rest : List UInt8} {b : UInt8} (h : Writes item b)
    (hlabel : maxLength ≤ label.length) : Fails label (item ++ rest) .tooLong

/--
How a reader who stands in a label gets through a text: the labels that end there, and what he has
read then of the label at which he stands.
-/
inductive Passes : Label → List UInt8 → List Label → Label → Prop where
  | here {front : Label} : Passes front [] [] front
  | item {front label : Label} {item text : List UInt8} {labels : List Label} {b : UInt8}
    (h : Writes item b) (hfront : front.length < maxLength)
    (others : Passes (front ++ [b]) text labels label) : Passes front (item ++ text) labels label
  | dot {front label : Label} {text : List UInt8} {labels : List Label} (hfront : front ≠ [])
    (others : Passes [] text labels label) :
    Passes front (Ascii.byte '.' :: text) (front :: labels) label

section Reading

variable {front label : Label} {text behind : List UInt8} {labels : List Label} {fault : Fault}

theorem readItem_of_writes {item : List UInt8} {b : UInt8} (h : Writes item b)
    (behind : List UInt8) :
    ∃ first rest, item ++ behind = first :: rest ∧ readItem first rest = .ok (.byte b, behind) := by
  cases h with
  | plain hdot hescape => exact ⟨_, _, rfl, readItem_plain hdot hescape behind⟩
  | escaped h => exact ⟨_, _, rfl, readItem_escaped h behind⟩
  | decimal hx hy hz hvalue => exact ⟨_, _, rfl, readItem_decimal hx hy hz hvalue behind⟩

theorem readItem_of_breaks {b : UInt8} {rest : List UInt8} (h : Breaks (b :: rest) fault) :
    readItem b rest = .error fault := by
  have hdot : Ascii.byte '\\' ≠ Ascii.byte '.' := by decide
  cases h with
  | range hx hy hz hvalue => simp [readItem, hdot, hx, hy, hz, hvalue]
  | nothing => simp [readItem, hdot]
  | @digits x rest hx hrest =>
    unfold readItem
    rw [if_neg (by simpa using hdot), if_pos (by simp)]
    dsimp only
    rw [if_neg (by simp [hx])]
    split
    . next y z behind =>
      have := hrest y z behind rfl
      rw [if_neg (by simpa using this)]
    . rfl

theorem dot_or_writes_or_breaks (b : UInt8) (rest : List UInt8) :
    b = Ascii.byte '.' ∨ (∃ item value behind, Writes item value ∧ b :: rest = item ++ behind) ∨
      ∃ fault, Breaks (b :: rest) fault := by
  by_cases hdot : b = Ascii.byte '.'
  . exact .inl hdot
  right
  by_cases hescape : b = Ascii.byte '\\'
  . subst hescape
    match rest with
    | [] => exact .inr ⟨_, .nothing⟩
    | x :: rest =>
      cases hx : Ascii.isDigit x with
      | false => exact .inl ⟨_, _, rest, .escaped hx, rfl⟩
      | true =>
        by_cases hdigits : ∃ y z behind, rest = y :: z :: behind ∧
            Ascii.isDigit y = true ∧ Ascii.isDigit z = true
        . rcases hdigits with ⟨y, z, behind, rfl, hy, hz⟩
          by_cases hvalue : Ascii.digit x * 100 + Ascii.digit y * 10 + Ascii.digit z ≤ 0xFF
          . exact .inl ⟨_, _, behind, .decimal hx hy hz hvalue, rfl⟩
          . exact .inr ⟨_, .range hx hy hz (Nat.not_le.mp hvalue)⟩
        . refine .inr ⟨_, .digits hx ?_⟩
          intro y z behind hrest hboth
          exact hdigits ⟨y, z, behind, hrest, hboth⟩
  . exact .inl ⟨_, _, rest, .plain hdot hescape, rfl⟩

theorem Fails.go (h : Fails label text fault) : readLabels.go label text = .error fault := by
  cases h with
  | @item _ text _ h =>
    cases text with
    | nil => cases h
    | cons b rest =>
      rw [readLabels.go]
      split
      . next heq =>
        rw [readItem_of_breaks h, Except.error.injEq] at heq
        rw [heq]
      . next heq => simp [readItem_of_breaks h] at heq
      . next heq => simp [readItem_of_breaks h] at heq
  | empty => exact go_nil_dot _
  | @long _ item rest b h hlabel =>
    rcases readItem_of_writes h rest with ⟨first, others, htext, hitem⟩
    rw [htext, readLabels.go]
    split
    . next heq => simp [hitem] at heq
    . next heq => simp [hitem] at heq
    . rw [if_pos hlabel]

theorem Passes.go (h : Passes front text labels label) (behind : List UInt8) :
    readLabels.go front (text ++ behind)
      =
    (readLabels.go label behind).map (labels ++ ·) := by
  induction h with
  | @here front =>
    rw [List.nil_append]
    cases readLabels.go front behind <;> rfl
  | @item _ _ _ text _ _ h hfront _ ih =>
    rcases readItem_of_writes h (text ++ behind) with ⟨first, rest, htext, hitem⟩
    rw [List.append_assoc, htext, go_cons_byte hitem hfront, ih]
  | dot hfront _ ih =>
    rw [List.cons_append, go_cons_dot hfront, ih]
    cases readLabels.go _ behind <;> rfl

theorem exists_passes (front : Label) (text : List UInt8) :
    ∃ done behind labels label, text = done ++ behind ∧ Passes front done labels label ∧
      (behind = [] ∨ ∃ fault, Fails label behind fault) := by
  cases text with
  | nil => exact ⟨[], [], [], front, rfl, .here, .inl rfl⟩
  | cons b rest =>
    rcases dot_or_writes_or_breaks b rest with rfl | ⟨item, value, behind, hitem, htext⟩ |
      ⟨fault, hbreaks⟩
    . by_cases hfront : front = []
      . subst hfront
        exact ⟨[], _, [], [], rfl, .here, .inr ⟨_, .empty⟩⟩
      . rcases exists_passes [] rest with ⟨done, behind, labels, label, rfl, hpasses, hend⟩
        exact ⟨_, behind, _, label, rfl, .dot hfront hpasses, hend⟩
    . rw [htext]
      by_cases hfront : front.length < maxLength
      . have hshorter : behind.length < rest.length + 1 := by
          have hlength := congrArg List.length htext
          rw [List.length_cons, List.length_append] at hlength
          have : 0 < item.length := by cases hitem <;> simp
          omega
        rcases exists_passes (front ++ [value]) behind with
          ⟨done, others, labels, label, rfl, hpasses, hend⟩
        rw [← List.append_assoc]
        exact ⟨_, others, _, label, rfl, .item hitem hfront hpasses, hend⟩
      . exact ⟨[], _, [], front, rfl, .here, .inr ⟨_, .long hitem (Nat.not_lt.mp hfront)⟩⟩
    . exact ⟨[], _, [], front, rfl, .here, .inr ⟨fault, .item hbreaks⟩⟩
termination_by text.length

def ending (labels : List Label) (label : Label) : List Label :=
  labels ++ if label.isEmpty then [] else [label]

theorem Passes.go_end (h : Passes front text labels label) :
    readLabels.go front text = .ok (ending labels label) := by
  have hgo := h.go []
  rw [List.append_nil, readLabels.go] at hgo
  exact hgo

theorem go_eq_ok_iff {read : List Label} :
    readLabels.go front text = .ok read
      ↔
    ∃ labels label, Passes front text labels label ∧ read = ending labels label := by
  constructor
  . intro h
    rcases exists_passes front text with ⟨done, behind, labels, label, rfl, hpasses, hend⟩
    rcases hend with rfl | ⟨fault, hfails⟩
    . rw [List.append_nil] at h ⊢
      rw [hpasses.go_end, Except.ok.injEq] at h
      exact ⟨labels, label, hpasses, h.symm⟩
    . rw [hpasses.go, hfails.go] at h
      contradiction
  . rintro ⟨labels, label, hpasses, rfl⟩
    exact hpasses.go_end

theorem go_eq_error_iff :
    readLabels.go front text = .error fault
      ↔
    ∃ done behind labels label, text = done ++ behind ∧ Passes front done labels label ∧
      Fails label behind fault := by
  constructor
  . intro h
    rcases exists_passes front text with ⟨done, behind, labels, label, rfl, hpasses, hend⟩
    rcases hend with rfl | ⟨other, hfails⟩
    . rw [List.append_nil, hpasses.go_end] at h
      contradiction
    . have hgo := hpasses.go behind
      rw [h, hfails.go, Except.map, Except.error.injEq] at hgo
      rw [hgo]
      exact ⟨done, behind, labels, label, rfl, hpasses, hfails⟩
  . rintro ⟨done, behind, labels, label, rfl, hpasses, hfails⟩
    rw [hpasses.go, hfails.go]
    rfl

end Reading

section Pieces

variable {front label : Label} {text last : List UInt8} {texts : List (List UInt8)}
  {labels : List Label}

theorem pieces_dot (rest : List UInt8) : pieces (Ascii.byte '.' :: rest) = [] :: pieces rest := by
  cases rest with
  | nil => simp [pieces]
  | cons b rest => simp [pieces]

theorem pieces_plain {b : UInt8} (hdot : b ≠ Ascii.byte '.') (hescape : b ≠ Ascii.byte '\\')
    (rest : List UInt8) : pieces (b :: rest) = (pieces rest).modifyHead ([b] ++ ·) := by
  cases rest with
  | nil => simp [pieces, hdot]
  | cons c rest => simp [pieces, hdot, hescape]

theorem pieces_escape (b : UInt8) (rest : List UInt8) :
    pieces (Ascii.byte '\\' :: b :: rest)
      =
    (pieces rest).modifyHead ([Ascii.byte '\\', b] ++ ·) := by
  have hdot : Ascii.byte '\\' ≠ Ascii.byte '.' := by decide
  simp [pieces, hdot]

theorem plain_of_isDigit {b : UInt8} (h : Ascii.isDigit b = true) :
    b ≠ Ascii.byte '.' ∧ b ≠ Ascii.byte '\\' := by
  constructor
  . rintro rfl
    exact absurd h (by decide)
  . rintro rfl
    exact absurd h (by decide)

theorem pieces_writes {item : List UInt8} {b : UInt8} (h : Writes item b) (rest : List UInt8) :
    pieces (item ++ rest) = (pieces rest).modifyHead (item ++ ·) := by
  cases h with
  | plain hdot hescape => exact pieces_plain hdot hescape rest
  | escaped h => exact pieces_escape b rest
  | @decimal x y z hx hy hz hvalue =>
    have hplain := plain_of_isDigit hy
    have hplain' := plain_of_isDigit hz
    change pieces (Ascii.byte '\\' :: x :: y :: z :: rest) = _
    rw [pieces_escape, pieces_plain hplain.1 hplain.2, pieces_plain hplain'.1 hplain'.2,
      List.modifyHead_modifyHead, List.modifyHead_modifyHead]
    rfl

theorem pieces_ne_nil (text : List UInt8) : pieces text ≠ [] := by
  fun_induction pieces text with
  | case1 => simp
  | case2 => simp
  | case3 => simp
  | case4 => simp
  | case5 c rest _ ih => simpa using ih
  | case6 b c rest _ _ ih => simpa using ih

theorem modifyHead_nil_append {α : Type} (pieces : List (List α)) :
    pieces.modifyHead ([] ++ ·) = pieces := by
  cases pieces <;> rfl

theorem intercalate_modifyHead {α : Type} {pieces : List (List α)} (h : pieces ≠ [])
    (separator front : List α) :
    separator.intercalate (pieces.modifyHead (front ++ ·))
      =
    front ++ separator.intercalate pieces := by
  match pieces with
  | [piece] => simp
  | piece :: next :: others => simp [List.intercalate_cons_of_ne_nil]

theorem intercalate_pieces (text : List UInt8) :
    [Ascii.byte '.'].intercalate (pieces text) = text := by
  fun_induction pieces text with
  | case1 => rfl
  | case2 => rfl
  | case3 => simp
  | case4 c rest ih => rw [List.intercalate_cons_of_ne_nil (pieces_ne_nil _), ih]; rfl
  | case5 c rest hdot ih => rw [intercalate_modifyHead (pieces_ne_nil _), ih]; rfl
  | case6 b c rest hdot hescape ih => rw [intercalate_modifyHead (pieces_ne_nil _), ih]; rfl

theorem Spells.concat (h : Spells text label) {item : List UInt8} {b : UInt8}
    (hitem : Writes item b) : Spells (text ++ item) (label ++ [b]) := by
  induction h with
  | nil =>
    have := Spells.cons hitem .nil
    rwa [List.append_nil] at this
  | cons first _ ih =>
    rw [List.append_assoc]
    exact .cons first ih

/--
Between the dots stand the texts of the labels. `start` was read before.
-/
theorem Passes.pieces (h : Passes front text labels label) {start : List UInt8}
    (hstart : Spells start front) (hfront : front.length ≤ maxLength) :
    ∃ texts last, (pieces text).modifyHead (start ++ ·) = texts ++ [last] ∧
      List.Forall₂ Presents texts labels ∧ Spells last label ∧ label.length ≤ maxLength := by
  induction h generalizing start with
  | here => exact ⟨[], start, by simp [Label.pieces], .nil, hstart, hfront⟩
  | @item front _ _ _ _ b h hlength _ ih =>
    rw [pieces_writes h, List.modifyHead_modifyHead]
    have hroom : (front ++ [b]).length ≤ maxLength := by
      rw [List.length_append, List.length_singleton]
      exact hlength
    rcases ih (hstart.concat h) hroom with ⟨texts, last, hpieces, hrest⟩
    refine ⟨texts, last, ?_, hrest⟩
    rw [← hpieces]
    simp [Function.comp_def]
  | dot hne _ ih =>
    rcases ih .nil (Nat.zero_le _) with ⟨texts, last, hpieces, htexts, hlast⟩
    refine ⟨start :: texts, last, ?_, .cons ⟨hstart, ?_, hfront⟩ htexts, hlast⟩
    . rw [pieces_dot, List.cons_append, ← hpieces, modifyHead_nil_append]
      simp
    . exact List.length_pos_iff.mpr hne

theorem Spells.passes (h : Spells text label) {front other : Label} {rest : List UInt8}
    (hlength : front.length + label.length ≤ maxLength)
    (hrest : Passes (front ++ label) rest labels other) :
    Passes front (text ++ rest) labels other := by
  induction h generalizing front with
  | nil =>
    rw [List.append_nil] at hrest
    exact hrest
  | cons first _ ih =>
    rw [List.length_cons] at hlength
    rw [List.append_assoc]
    refine .item first (by omega) (ih ?_ ?_)
    . rw [List.length_append, List.length_singleton]
      omega
    . rw [List.append_assoc]
      exact hrest

theorem passes_of_presents (htexts : List.Forall₂ Presents texts labels) (hlast : Spells last label)
    (hlength : label.length ≤ maxLength) :
    Passes [] ([Ascii.byte '.'].intercalate (texts ++ [last])) labels label := by
  induction htexts with
  | nil =>
    have hpasses : Passes [] (last ++ []) [] label :=
      hlast.passes (by simpa using hlength) .here
    simpa using hpasses
  | cons hfirst _ ih =>
    rcases hfirst with ⟨hspells, hpos, hle⟩
    rw [List.cons_append, List.intercalate_cons_of_ne_nil (by simp), List.append_assoc]
    apply hspells.passes
    . simpa using hle
    . exact .dot (List.length_pos_iff.mp hpos) ih

theorem passes_iff_pieces :
    Passes [] text labels label
      ↔
    ∃ texts last, pieces text = texts ++ [last] ∧ List.Forall₂ Presents texts labels ∧
      Spells last label ∧ label.length ≤ maxLength := by
  constructor
  . intro h
    rcases h.pieces .nil (Nat.zero_le _) with ⟨texts, last, hpieces, hrest⟩
    refine ⟨texts, last, ?_, hrest⟩
    rw [← hpieces, modifyHead_nil_append]
  . rintro ⟨texts, last, hpieces, htexts, hlast, hlength⟩
    rw [← intercalate_pieces text, hpieces]
    exact passes_of_presents htexts hlast hlength

theorem exists_concat_of_forall₂ {α β : Type} {R : α → β → Prop} {front : List α} {last : α}
    {items : List β} (h : List.Forall₂ R (front ++ [last]) items) :
    ∃ others item, items = others ++ [item] ∧ List.Forall₂ R front others ∧ R last item := by
  induction front generalizing items with
  | nil =>
    rcases List.forall₂_cons_left_iff.mp h with ⟨item, others, hitem, hothers, rfl⟩
    cases hothers
    exact ⟨[], item, rfl, .nil, hitem⟩
  | cons first front ih =>
    rcases List.forall₂_cons_left_iff.mp h with ⟨item, others, hitem, hothers, rfl⟩
    rcases ih hothers with ⟨others, end', rfl, hfront, hlast⟩
    exact ⟨item :: others, end', rfl, .cons hitem hfront, hlast⟩

theorem readLabels_eq_ok_iff {read : List Label} :
    readLabels text = .ok read
      ↔
    text = [] ∧ read = [] ∨
      ∃ texts, texts ≠ [] ∧ (pieces text = texts ∨ pieces text = texts ++ [[]]) ∧
        List.Forall₂ Presents texts read := by
  unfold readLabels
  simp only [go_eq_ok_iff, passes_iff_pieces]
  constructor
  . rintro ⟨labels, label, ⟨texts, last, hpieces, htexts, hlast, hlength⟩, rfl⟩
    unfold ending
    split
    . next hempty =>
      -- The text is empty, or its last character is a dot.
      rw [List.isEmpty_iff] at hempty
      subst hempty
      cases hlast
      rw [List.append_nil]
      by_cases hnil : texts = []
      . subst hnil
        cases htexts
        refine .inl ⟨?_, rfl⟩
        rw [← intercalate_pieces text, hpieces]
        rfl
      . exact .inr ⟨texts, hnil, .inr hpieces, htexts⟩
    . next hsome =>
      refine .inr ⟨texts ++ [last], by simp, .inl hpieces, ?_⟩
      refine List.rel_append htexts (.cons ⟨hlast, ?_, hlength⟩ .nil)
      rw [List.length_pos_iff]
      simpa using hsome
  . rintro (⟨rfl, rfl⟩ | ⟨texts, hne, hpieces | hpieces, htexts⟩)
    . exact ⟨[], [], ⟨[], [], rfl, .nil, .nil, Nat.zero_le _⟩, rfl⟩
    . rcases List.eq_nil_or_concat texts with hnil | ⟨front, last, hconcat⟩
      . contradiction
      . rw [hconcat, List.concat_eq_append] at hpieces htexts
        rcases exists_concat_of_forall₂ htexts with ⟨labels, label, rfl, hfront, hlast, hpos, hle⟩
        refine ⟨labels, label, ⟨front, last, hpieces, hfront, hlast, hle⟩, ?_⟩
        rw [ending, if_neg]
        simpa using List.length_pos_iff.mp hpos
    . exact ⟨read, [], ⟨texts, [], hpieces, htexts, .nil, Nat.zero_le _⟩, by simp [ending]⟩

end Pieces

theorem parseAll_eq_ok_iff {text : List UInt8} {read : List Label} :
    parseAll text = .ok read
      ↔
    text = [Ascii.byte '.'] ∧ read = [] ∨ readLabels text = .ok read := by
  unfold parseAll
  split
  . next hdot =>
    rw [beq_iff_eq] at hdot
    subst hdot
    have hfails : readLabels [Ascii.byte '.'] = .error .emptyLabel := go_nil_dot []
    simp [hfails, eq_comm]
  . next hdot =>
    rw [beq_iff_eq] at hdot
    simp [hdot]

theorem parseAll_eq_error_iff {text : List UInt8} {fault : Fault} :
    parseAll text = .error fault
      ↔
    text ≠ [Ascii.byte '.'] ∧ readLabels text = .error fault := by
  unfold parseAll
  split
  . next hdot =>
    rw [beq_iff_eq] at hdot
    simp [hdot]
  . next hdot =>
    rw [beq_iff_eq] at hdot
    simp [hdot]

/--
A text is read exactly if it is empty, a lone dot, or if its pieces between the dots are the texts
of labels, with one more dot behind them or without; these labels are what is read. Any other text
is refused for what is wrong at the place up to which it could be read.
-/
theorem read_iff_presents (text : String) :
    let read := (parseAll (Ascii.bytes text)).mapError fun fault => Error.parse (fault.message text)
    (∀ labels, read = .ok labels
        ↔
      labels = [] ∧ (text = "" ∨ text = ".") ∨
        ∃ texts, texts ≠ [] ∧
          (pieces (Ascii.bytes text) = texts ∨ pieces (Ascii.bytes text) = texts ++ [[]]) ∧
          List.Forall₂ Presents texts labels) ∧
    (∀ error, read = .error error
        ↔
      text ≠ "." ∧ ∃ fault done behind labels label, error = .parse (fault.message text) ∧
        Ascii.bytes text = done ++ behind ∧ Passes [] done labels label ∧
        Fails label behind fault) := by
  intro read
  have hempty : Ascii.bytes text = [] ↔ text = "" := by
    rw [← Ascii.bytes_inj, show Ascii.bytes "" = [] from Ascii.bytes_ofList []]
  have hdot : Ascii.bytes text = [Ascii.byte '.'] ↔ text = "." := by
    rw [← Ascii.bytes_inj, show Ascii.bytes "." = [Ascii.byte '.'] from Ascii.bytes_ofList ['.']]
  constructor
  . intro labels
    rw [mapError_eq_ok_iff, parseAll_eq_ok_iff, readLabels_eq_ok_iff, hempty, hdot]
    grind
  . intro error
    rw [mapError_eq_error_iff]
    simp only [parseAll_eq_error_iff, readLabels, go_eq_error_iff, ne_eq, hdot]
    constructor
    . rintro ⟨fault, ⟨hne, done, behind, labels, label, htext, hpasses, hfails⟩, rfl⟩
      exact ⟨hne, fault, done, behind, labels, label, rfl, htext, hpasses, hfails⟩
    . rintro ⟨hne, fault, done, behind, labels, label, rfl, htext, hpasses, hfails⟩
      exact ⟨fault, ⟨hne, done, behind, labels, label, htext, hpasses, hfails⟩, rfl⟩

end Zeroconf.Label
