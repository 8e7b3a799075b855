import Zeroconf.Name.HostText
import Zeroconf.Proofs.Name.Idna
import Zeroconf.Proofs.Name.Text
import Zeroconf.Proofs.Name.Wire

/-!
This module contains the proof that the reader of host names takes the presentation text of a name
for this name exactly if all labels of the name are those of a host.
-/

namespace Zeroconf.Label

def isHostByte (first : Bool) (b : UInt8) : Bool :=
  (0x61 ≤ Ascii.lower b && Ascii.lower b ≤ 0x7A) || Ascii.isDigit b || b == Ascii.byte '_' ||
    b == Ascii.byte '.' || b == Ascii.byte (if first then '*' else '-')

/--
Whether the label is one of a host: there are letters, digits, underscores and dots in it, behind
its start also hyphens, and at its start also an asterisk.
-/
def isHost : Label → Bool
  | [] => false
  | b :: label => isHostByte true b && label.all (isHostByte false)

theorem isHostByte_lower (first : Bool) (b : UInt8) :
    isHostByte first (Ascii.lower b) = isHostByte first b := by
  apply Ascii.forall_byte (p := fun b => isHostByte first (Ascii.lower b) = isHostByte first b)
  cases first <;> decide +kernel

theorem isHost_fold (label : Label) : label.fold.isHost = label.isHost := by
  cases label with
  | nil => rfl
  | cons b label => simp [fold, isHost, isHostByte_lower, Function.comp_def]

theorem exists_isHostByte {label : Label} (h : label.isHost = true) {b : UInt8} (hb : b ∈ label) :
    ∃ first, isHostByte first b = true := by
  cases label with
  | nil => contradiction
  | cons c label =>
    rw [isHost, Bool.and_eq_true, List.all_eq_true] at h
    rcases List.mem_cons.mp hb with rfl | hb
    . exact ⟨true, h.1⟩
    . exact ⟨false, h.2 b hb⟩

theorem lt_of_isHostByte {first : Bool} {b : UInt8} (h : isHostByte first b = true) : b < 0x80 := by
  revert h
  apply Ascii.forall_byte (p := fun b => isHostByte first b = true → b < 0x80)
  cases first <;> decide +kernel

theorem lt_of_isHost {label : Label} (h : label.isHost = true) : ∀ b ∈ label, b < 0x80 := by
  intro b hb
  rcases exists_isHostByte h hb with ⟨first, hfirst⟩
  exact lt_of_isHostByte hfirst

end Zeroconf.Label

namespace Zeroconf.Name

namespace HostText

def chars (bytes : List UInt8) : List Char := (Ascii.text bytes).toList

theorem chars_cons (b : UInt8) (bytes : List UInt8) :
    chars (b :: bytes) = Char.ofNat b.toNat :: chars bytes := by
  simp [chars]

theorem chars_append (front behind : List UInt8) :
    chars (front ++ behind) = chars front ++ chars behind := by
  simp [chars]

theorem toLabel_chars {label : Label} (h : ∀ b ∈ label, b < 0x80) :
    toLabel (chars label) = label := by
  unfold toLabel chars
  rw [String.ofList_toList, Ascii.bytes_text h]

theorem utf8Length_eq (label : List Char) : utf8Length label = (toLabel label).length := by
  unfold utf8Length toLabel
  rw [Ascii.bytes_ofList, ← String.size_toByteArray, String.toByteArray_ofList]
  simp [List.utf8Encode]

theorem isLabelChar_ofNat (first : Bool) (b : UInt8) :
    isLabelChar first (Char.ofNat b.toNat) = Label.isHostByte first b := by
  apply Ascii.forall_byte
    (p := fun b => isLabelChar first (Char.ofNat b.toNat) = Label.isHostByte first b)
  cases first <;> decide +kernel

theorem isAscii_of_isLabelChar {first : Bool} {c : Char} (h : isLabelChar first c = true) :
    Text.Punycode.isAscii c = true := by
  have hupper (h : c.isUpper = true) : c.toNat ≤ 'Z'.toNat := (of_decide_eq_true h).2
  have hlower (h : c.isLower = true) : c.toNat ≤ 'z'.toNat := by
    have := ((Bool.and_eq_true ..).mp h).2
    exact of_decide_eq_true this
  have hdigit (h : c.isDigit = true) : c.toNat ≤ '9'.toNat := (Char.isDigit_iff_toNat.mp h).2
  have hlast : 'Z'.toNat < 0x80 ∧ 'z'.toNat < 0x80 ∧ '9'.toNat < 0x80 := by decide
  rw [Text.Punycode.isAscii, decide_eq_true_eq]
  simp only [isLabelChar, Char.isAlphanum, Bool.or_eq_true, Bool.and_eq_true, beq_iff_eq] at h
  rcases h with ((((h | h) | rfl) | rfl) | ⟨rfl, -⟩) | ⟨rfl, -⟩
  . rcases (Bool.or_eq_true ..).mp h with h | h
    . have := hupper h
      omega
    . have := hlower h
      omega
  . have := hdigit h
    omega
  all_goals decide

theorem exists_byte_of_isLabelChar {first : Bool} {c : Char} (h : isLabelChar first c = true) :
    ∃ b, Char.ofNat b.toNat = c ∧ Label.isHostByte first b = true := by
  have hascii : c.toNat < 0x80 := by simpa [Text.Punycode.isAscii] using isAscii_of_isLabelChar h
  have hchar : Char.ofNat (Ascii.byte c).toNat = c := by
    have hbyte : (Ascii.byte c).toNat = c.toNat := by
      simp [Ascii.byte]
      omega
    rw [hbyte, Char.ofNat_toNat]
  refine ⟨Ascii.byte c, hchar, ?_⟩
  rw [← isLabelChar_ofNat, hchar, h]

theorem exists_chars_of_isLabelChar {first : Bool} {cs : List Char}
    (h : ∀ c ∈ cs, isLabelChar first c = true) :
    ∃ bytes, chars bytes = cs ∧ ∀ b ∈ bytes, Label.isHostByte first b = true := by
  induction cs with
  | nil => exact ⟨[], rfl, by simp⟩
  | cons c cs ih =>
    rcases exists_byte_of_isLabelChar (h c (by simp)) with ⟨b, hchar, hb⟩
    rcases ih fun d hd => h d (by simp [hd]) with ⟨bytes, hchars, hbytes⟩
    refine ⟨b :: bytes, ?_, ?_⟩
    . rw [chars_cons, hchar, hchars]
    . simpa [hb] using hbytes

/-! ### Which labels are accepted -/

theorem eq_of_plainLabel {label finished : List Char} (h : plainLabel label = .ok finished) :
    finished = label := by
  unfold plainLabel at h
  grind

theorem isHost_of_plainLabel {label finished : List Char} (h : plainLabel label = .ok finished) :
    (toLabel finished).isHost = true := by
  rw [eq_of_plainLabel h]
  unfold plainLabel at h
  split at h
  . contradiction
  . split at h
    . next c cs =>
      split at h
      . next hchars =>
        rw [Bool.and_eq_true, List.all_eq_true] at hchars
        rcases exists_byte_of_isLabelChar hchars.1 with ⟨b, hc, hb⟩
        rcases exists_chars_of_isLabelChar hchars.2 with ⟨bytes, hcs, hbytes⟩
        have hhost : Label.isHost (b :: bytes) = true := by simpa [Label.isHost, hb] using hbytes
        rw [← hc, ← hcs, ← chars_cons, toLabel_chars (Label.lt_of_isHost hhost), hhost]
      . contradiction
    . contradiction

theorem plainLabel_chars {label : Label} (h : label.isHost = true)
    (hlength : label.length ≤ Label.maxLength) : plainLabel (chars label) = .ok (chars label) := by
  unfold plainLabel
  rw [utf8Length_eq, toLabel_chars (Label.lt_of_isHost h), if_neg (by omega)]
  cases label with
  | nil => contradiction
  | cons b label =>
    rw [Label.isHost, Bool.and_eq_true, List.all_eq_true] at h
    rw [chars_cons]
    dsimp only
    rw [if_pos]
    simpa [isLabelChar_ofNat, h.1, chars] using h.2

theorem isHost_of_foldedLabel {label finished : List Char} (h : foldedLabel label = .ok finished) :
    (toLabel finished).isHost = true := by
  unfold foldedLabel at h
  split at h
  . exact isHost_of_plainLabel h
  . split at h
    . exact isHost_of_plainLabel h
    . contradiction

theorem map_toLower_chars {label : Label} (h : ∀ b ∈ label, b < 0x80) :
    (chars label).map Char.toLower = chars label.fold := by
  have hbyte (b : UInt8) :
      b < 0x80 → (Char.ofNat b.toNat).toLower = Char.ofNat (Ascii.lower b).toNat := by
    apply Ascii.forall_byte
      (p := fun b => b < 0x80 → (Char.ofNat b.toNat).toLower = Char.ofNat (Ascii.lower b).toNat)
    decide +kernel
  simp only [chars, Ascii.toList_text, Label.fold, List.map_map, List.map_inj_left]
  intro b hb
  exact hbyte b (h b hb)

theorem isAscii_of_mem_chars {label : Label} (h : ∀ b ∈ label, b < 0x80) {c : Char}
    (hc : c ∈ chars label) : Text.Punycode.isAscii c = true := by
  rw [chars, Ascii.toList_text, List.mem_map] at hc
  rcases hc with ⟨b, hb, rfl⟩
  rw [Text.Punycode.isAscii, Ascii.toNat_ofNat_toNat, decide_eq_true_eq]
  exact h b hb

theorem fold_toLabel_of_foldedLabel {label : Label} (h : label.isHost = true)
    {finished : List Char} (hfinished : foldedLabel (chars label) = .ok finished) :
    (toLabel finished).fold = label.fold := by
  have hascii := Label.lt_of_isHost h
  unfold foldedLabel at hfinished
  split at hfinished
  . rw [eq_of_plainLabel hfinished, toLabel_chars hascii]
  . split at hfinished
    . next ascii htext =>
      have hlower := Idna.toAscii?_eq_of_isAscii (fun c => isAscii_of_mem_chars hascii) htext
      have hfold : label.fold.isHost = true := by rw [Label.isHost_fold, h]
      rw [eq_of_plainLabel hfinished, hlower, map_toLower_chars hascii,
        toLabel_chars (Label.lt_of_isHost hfold), Label.fold_fold]
    . contradiction

/-! ### What is read -/

variable {accept : List Char → Except HostFault (List Char)}

theorem push_eq_ok_iff {labels more : List Label} {label : List Char} :
    push accept labels label = .ok more
      ↔
    ∃ finished, accept label = .ok finished ∧ extend labels (toLabel finished) = .ok more := by
  unfold push
  cases accept label with
  | error fault => simp [bind, Except.bind]
  | ok finished => simp [bind, Except.bind, mapError_eq_ok_iff]

theorem isHost_of_push
    (haccept : ∀ label finished, accept label = .ok finished → (toLabel finished).isHost = true)
    {labels more : List Label} {label : List Char} (hlabels : ∀ l ∈ labels, l.isHost = true)
    (h : push accept labels label = .ok more) : ∀ l ∈ more, l.isHost = true := by
  rcases push_eq_ok_iff.mp h with ⟨finished, hfinished, hmore⟩
  rw [(extend_eq_ok_iff.mp hmore).1]
  intro l hl
  rcases List.mem_append.mp hl with hl | hl
  . exact hlabels l hl
  . rw [List.mem_singleton] at hl
    rw [hl]
    exact haccept label finished hfinished

theorem isHost_of_readLabels
    (haccept : ∀ label finished, accept label = .ok finished → (toLabel finished).isHost = true)
    {labels found : List Label} {label text : List Char} {state : State}
    (hlabels : ∀ l ∈ labels, l.isHost = true)
    (h : readLabels accept labels label state text = .ok found) :
    ∀ l ∈ found, l.isHost = true := by
  -- Labels are only added by `push`; what the reader has of the next one does not matter.
  induction text generalizing labels label state with
  | nil =>
    unfold readLabels at h
    split at h
    . rw [← Except.ok.inj h]
      exact hlabels
    . exact isHost_of_push haccept hlabels h
  | cons c text ih =>
    cases state with
    | plain =>
      rw [readLabels] at h
      split at h
      . rcases bind_eq_ok_iff.mp h with ⟨more, hmore, h⟩
        exact ih (isHost_of_push haccept hlabels hmore) h
      . split at h
        . exact ih hlabels h
        . split at h
          . contradiction
          . exact ih hlabels h
    | escaped =>
      rw [readLabels] at h
      split at h
      . rcases bind_eq_ok_iff.mp h with ⟨high, -, h⟩
        exact ih hlabels h
      . exact ih hlabels h
    | octal₁ high =>
      rw [readLabels] at h
      split at h
      . rcases bind_eq_ok_iff.mp h with ⟨middle, -, h⟩
        exact ih hlabels h
      . contradiction
    | octal₂ high middle =>
      rw [readLabels] at h
      split at h
      . rcases bind_eq_ok_iff.mp h with ⟨low, -, h⟩
        exact ih hlabels h
      . contradiction

theorem readLabels_dot (labels : List Label) (label rest : List Char) :
    readLabels accept labels label .plain ('.' :: rest)
      =
    (push accept labels label).bind fun more => readLabels accept more [] .plain rest := by
  rfl

theorem plain_of_isHostByte {first : Bool} {b : UInt8} (h : Label.isHostByte first b = true)
    (hdot : b ≠ Ascii.byte '.') :
    let c := Char.ofNat b.toNat
    Label.escapeByte b = [b] ∧ (c == '.') = false ∧ (c == '\\') = false ∧
      (Text.isBlank c || Text.isControl c) = false := by
  revert h hdot
  apply Ascii.forall_byte (p := fun b => Label.isHostByte first b = true → b ≠ Ascii.byte '.' →
    let c := Char.ofNat b.toNat
    Label.escapeByte b = [b] ∧ (c == '.') = false ∧ (c == '\\') = false ∧
      (Text.isBlank c || Text.isControl c) = false)
  cases first <;> decide +kernel

theorem readLabels_escapeByte {first : Bool} {b : UInt8} (h : Label.isHostByte first b = true)
    (labels : List Label) (label rest : List Char) :
    readLabels accept labels label .plain (chars (Label.escapeByte b) ++ rest)
      =
    readLabels accept labels (label ++ [Char.ofNat b.toNat]) .plain rest := by
  by_cases hdot : b = Ascii.byte '.'
  . -- A dot stands behind a backslash, and is no digit.
    rw [hdot]
    rfl
  . rcases plain_of_isHostByte h hdot with ⟨htext, hend, hescape, hkept⟩
    rw [htext, chars_cons, List.cons_append, readLabels, hend, hescape, hkept]
    rfl

theorem readLabels_escape {label : Label}
    (h : ∀ b ∈ label, ∃ first, Label.isHostByte first b = true) (labels : List Label)
    (front rest : List Char) :
    readLabels accept labels front .plain (chars label.escape ++ rest)
      =
    readLabels accept labels (front ++ chars label) .plain rest := by
  induction label generalizing front with
  | nil => simp [chars, Label.escape]
  | cons b label ih =>
    rcases h b (by simp) with ⟨first, hfirst⟩
    have hsplit : chars (Label.escape (b :: label)) ++ rest
        =
      chars (Label.escapeByte b) ++ (chars (Label.escape label) ++ rest) := by
      rw [← List.append_assoc, ← chars_append]
      rfl
    rw [hsplit, readLabels_escapeByte hfirst, ih fun c hc => h c (by simp [hc]), chars_cons,
      List.append_assoc]
    rfl

theorem readLabels_dotted {labels : List Label} (h : ∀ label ∈ labels, label.isHost = true)
    (front : List Label) :
    readLabels accept front [] .plain (chars (dotted labels))
      =
    labels.foldlM (fun front label => push accept front (chars label)) front := by
  induction labels generalizing front with
  | nil => rfl
  | cons label labels ih =>
    have hbytes := fun b => Label.exists_isHostByte (h label (by simp)) (b := b)
    have hdot : Char.ofNat (Ascii.byte '.').toNat = '.' := by rfl
    rw [dotted_cons, chars_append, readLabels_escape hbytes, chars_cons, hdot, List.nil_append,
      readLabels_dot, List.foldlM_cons]
    cases push accept front (chars label) with
    | error fault => rfl
    | ok more => exact ih (fun l hl => h l (by simp [hl])) more

theorem foldlM_push_plainLabel {labels : List Label}
    (h : ∀ label ∈ labels, label.isHost = true ∧ label.length ≤ Label.maxLength)
    (front : List Label) :
    labels.foldlM (fun front label => push plainLabel front (chars label)) front
      =
    (labels.foldlM extend front).mapError .name := by
  induction labels generalizing front with
  | nil => rfl
  | cons label labels ih =>
    rcases h label (by simp) with ⟨hhost, hlength⟩
    have hpush : push plainLabel front (chars label) = (extend front label).mapError .name := by
      rw [push, plainLabel_chars hhost hlength]
      dsimp only [bind, Except.bind]
      rw [toLabel_chars (Label.lt_of_isHost hhost)]
    rw [List.foldlM_cons, List.foldlM_cons, hpush]
    cases extend front label with
    | error fault => rfl
    | ok more => exact ih (fun l hl => h l (by simp [hl])) more

theorem map_fold_of_foldlM_push_foldedLabel {labels front found : List Label}
    (h : ∀ label ∈ labels, label.isHost = true)
    (hfound : labels.foldlM (fun front label => push foldedLabel front (chars label)) front
      =
    .ok found) : found.map Label.fold = (front ++ labels).map Label.fold := by
  induction labels generalizing front with
  | nil => rw [List.append_nil, Except.ok.inj hfound]
  | cons label labels ih =>
    rw [List.foldlM_cons] at hfound
    rcases bind_eq_ok_iff.mp hfound with ⟨more, hmore, hfound⟩
    rcases push_eq_ok_iff.mp hmore with ⟨finished, hfinished, hmore⟩
    have hlabel := fold_toLabel_of_foldedLabel (h label (by simp)) hfinished
    rw [ih (fun l hl => h l (by simp [hl])) hfound, (extend_eq_ok_iff.mp hmore).1]
    simp [hlabel]

end HostText

open HostText

theorem isHost_of_ofHostText {text : String} {name : Name} (h : ofHostText text = .ok name) :
    ∀ label ∈ name.labels, label.isHost = true := by
  unfold ofHostText at h
  split at h
  . rw [← Except.ok.inj h]
    simp [root]
  . dsimp only at h
    split at h
    . next folded hfolded =>
      rcases map_eq_ok_iff.mp hfolded with ⟨found, hfound, rfl⟩
      rw [← Except.ok.inj h]
      exact isHost_of_readLabels (fun _ _ => isHost_of_foldedLabel) (by simp) hfound
    . rcases map_eq_ok_iff.mp h with ⟨found, hfound, rfl⟩
      exact isHost_of_readLabels (fun _ _ => isHost_of_plainLabel) (by simp) hfound

theorem text_ne_dot {name : Name} (hname : ∀ label ∈ name.labels, label.Fits)
    (hlabels : name.labels ≠ []) : name.text ≠ "." := by
  have hroot : root.text = "." := by rfl
  rw [← hroot]
  intro htext
  apply hlabels
  apply labels_eq_of_text_eq hname _ htext
  simp [root]

theorem ofHostText_text {labels : List Label} (hname : Fits ⟨labels, true⟩)
    (hhost : ∀ label ∈ labels, label.isHost = true) :
    ∃ read, ofHostText (Name.text ⟨labels, true⟩) = .ok read ∧ read.same ⟨labels, true⟩ = true := by
  by_cases hlabels : labels = []
  . rw [hlabels]
    exact ⟨root, rfl, same_refl root⟩
  . have htext : (Name.text ⟨labels, true⟩).toList = chars (dotted labels) := by
      simp [text, hlabels, chars]
    have hdot := text_ne_dot hname.1 hlabels
    unfold ofHostText
    rw [if_neg (by simpa using hdot), htext]
    dsimp only
    split
    . next folded hfolded =>
      rcases map_eq_ok_iff.mp hfolded with ⟨found, hfound, rfl⟩
      refine ⟨_, rfl, ?_⟩
      rw [HostText.readLabels_dotted hhost] at hfound
      rw [same_iff, fold, map_fold_of_foldlM_push_foldedLabel hhost hfound]
      rfl
    . -- What cannot be folded is read as it stands.
      have hplain : ∀ label ∈ labels, label.isHost = true ∧ label.length ≤ Label.maxLength := by
        intro label hlabel
        exact ⟨hhost label hlabel, (hname.1 label hlabel).2⟩
      have hextend : labels.foldlM extend [] = .ok labels := by
        rw [foldlM_extend_of_le]
        . rfl
        . exact hname.2
      rw [HostText.readLabels_dotted hhost, foldlM_push_plainLabel hplain, hextend]
      exact ⟨_, rfl, same_refl _⟩

theorem exists_ofHostText_text_iff {labels : List Label} (hname : Fits ⟨labels, true⟩) :
    (∃ read, ofHostText (Name.text ⟨labels, true⟩) = .ok read ∧
      read.same ⟨labels, true⟩ = true)
      ↔
    ∀ label ∈ labels, label.isHost = true := by
  constructor
  . rintro ⟨read, hread, hsame⟩ label hlabel
    have hfold : read.labels.map Label.fold = labels.map Label.fold := by
      exact congrArg Name.labels (same_iff.mp hsame)
    have hmem : label.fold ∈ read.labels.map Label.fold := by
      rw [hfold]
      exact List.mem_map_of_mem hlabel
    rcases List.mem_map.mp hmem with ⟨other, hother, heq⟩
    rw [← Label.isHost_fold, ← heq, Label.isHost_fold]
    exact isHost_of_ofHostText hread other hother
  . exact ofHostText_text hname

end Zeroconf.Name
