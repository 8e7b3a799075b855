import Zeroconf.Name.LinkLocal
import Zeroconf.Name.Reverse
import Zeroconf.Proofs.Address.Reader
import Zeroconf.Proofs.Name.HostText

/-!
This module contains the names of addresses. Every address has a name, from which it can be read
back, and this name is resolved by multicast exactly if the address is valid on one link only.
-/

namespace Zeroconf.Name

open HostText

/-! ### The text of the name of an address is read -/

theorem chars_flatMap {α : Type} (items : List α) (f : α → List UInt8) :
    chars (items.flatMap f) = items.flatMap fun item => chars (f item) := by
  simp [chars, List.map_flatMap]

theorem dotted_append (front labels : List Label) :
    dotted (front ++ labels) = dotted front ++ dotted labels := by
  simp [dotted]

/--
Whether a character is a digit of a name: its byte stands for itself, also in lower case, it is not
escaped, and it may stand anywhere in the label of a host.
-/
structure IsNameDigit (c : Char) : Prop where
  ofNat_byte : Char.ofNat (Ascii.byte c).toNat = c
  escapeByte : Label.escapeByte (Ascii.byte c) = [Ascii.byte c]
  lower : Ascii.lower (Ascii.byte c) = Ascii.byte c
  isHostByte : ∀ first, Label.isHostByte first (Ascii.byte c) = true

theorem isNameDigit_of_mem {radix n : Nat} (hradix : 1 < radix) (hle : radix ≤ 16) {c : Char}
    (hc : c ∈ Nat.toDigits radix n) : IsNameDigit c := by
  have hbyte : ∀ d < 16, Char.ofNat (Ascii.byte (Nat.digitChar d)).toNat = Nat.digitChar d := by
    decide
  have hescape : ∀ d < 16,
      Label.escapeByte (Ascii.byte (Nat.digitChar d)) = [Ascii.byte (Nat.digitChar d)] := by
    decide
  have hlower : ∀ d < 16,
      Ascii.lower (Ascii.byte (Nat.digitChar d)) = Ascii.byte (Nat.digitChar d) := by
    decide
  have hhost : ∀ d < 16, ∀ first,
      Label.isHostByte first (Ascii.byte (Nat.digitChar d)) = true := by
    decide
  rcases Address.mem_toDigits hradix hc with ⟨d, hd, rfl⟩
  have hd : d < 16 := Nat.lt_of_lt_of_le hd hle
  exact ⟨hbyte d hd, hescape d hd, hlower d hd, hhost d hd⟩

theorem map_byte_toDigits {radix : Nat} (hradix : 1 < radix) (hle : radix ≤ 16) (n : Nat) :
    ((Nat.toDigits radix n).map Ascii.byte).map (fun b => Char.ofNat b.toNat)
      =
    Nat.toDigits radix n := by
  rw [List.map_map]
  conv => rhs; rw [← List.map_id (Nat.toDigits radix n)]
  exact List.map_congr_left fun c hc => (isNameDigit_of_mem hradix hle hc).ofNat_byte

theorem fold_map_byte_toDigits {radix : Nat} (hradix : 1 < radix) (hle : radix ≤ 16) (n : Nat) :
    Label.fold ((Nat.toDigits radix n).map Ascii.byte) = (Nat.toDigits radix n).map Ascii.byte := by
  rw [Label.fold, List.map_map]
  exact List.map_congr_left fun c hc => (isNameDigit_of_mem hradix hle hc).lower

theorem chars_dotted_toDigits {radix : Nat} (hradix : 1 < radix) (hle : radix ≤ 16) (n : Nat) :
    chars (dotted [(Nat.toDigits radix n).map Ascii.byte]) = Nat.toDigits radix n ++ ['.'] := by
  have hescape : Label.escape ((Nat.toDigits radix n).map Ascii.byte)
      = (Nat.toDigits radix n).map Ascii.byte := by
    rw [Label.escape, List.flatMap_map, List.map_eq_flatMap]
    exact List.flatMap_congr fun c hc => (isNameDigit_of_mem hradix hle hc).escapeByte
  rw [dotted, List.flatMap_singleton, hescape, chars_append, chars, Ascii.toList_text,
    map_byte_toDigits hradix hle]
  rfl

theorem chars_dotted_decimalLabel (b : UInt8) :
    chars (dotted [decimalLabel b]) = dottedNumber 10 b :=
  chars_dotted_toDigits (by decide) (by decide) b.toNat

theorem chars_dotted_nibbleLabels (b : UInt8) :
    chars (dotted (nibbleLabels b)) = dottedNumber 16 (b &&& 0xF) ++ dottedNumber 16 (b >>> 4) := by
  have hnibble (n : UInt8) : chars (dotted [nibbleLabel n]) = dottedNumber 16 n :=
    chars_dotted_toDigits (by decide) (by decide) n.toNat
  rw [nibbleLabels, ← List.singleton_append, dotted_append, chars_append, hnibble, hnibble]

theorem toList_reverseText (ip : IpAddress) :
    (reverseText ip).toList = chars (dotted (ofAddress ip).labels) := by
  cases ip with
  | v4 ip =>
    have hzone : chars (dotted (arpa "in-addr")) = "in-addr.arpa.".toList := by decide
    have hbytes : ∀ bytes : List UInt8,
        chars (dotted (bytes.map decimalLabel)) = bytes.flatMap (dottedNumber 10) := by
      intro bytes
      rw [← funext chars_dotted_decimalLabel, ← chars_flatMap]
      simp [dotted, List.flatMap_map]
    dsimp only [ofAddress, reverseText]
    rw [dotted_append, chars_append, hzone, hbytes]
    simp
  | v6 ip =>
    have hzone : chars (dotted (arpa "ip6")) = "ip6.arpa.".toList := by decide
    have hbytes : ∀ bytes : List UInt8, chars (dotted (bytes.flatMap nibbleLabels))
        =
      bytes.flatMap fun b => dottedNumber 16 (b &&& 0xF) ++ dottedNumber 16 (b >>> 4) := by
      intro bytes
      rw [← funext chars_dotted_nibbleLabels, ← chars_flatMap]
      simp [dotted, List.flatMap_assoc]
    dsimp only [ofAddress, reverseText]
    rw [dotted_append, chars_append, hzone, hbytes]
    simp

theorem toNat_and_lt (b : UInt8) : (b &&& 0xF).toNat < 16 := by
  have : b.toNat &&& 15 ≤ 15 := Nat.and_le_right
  simp
  omega

theorem toNat_shiftRight_lt (b : UInt8) : (b >>> 4).toNat < 16 := by
  have := b.toNat_lt
  simp [Nat.shiftRight_eq_div_pow]
  omega

theorem length_nibbleLabel {n : UInt8} (hn : n.toNat < 16) : (nibbleLabel n).length = 1 := by
  rw [nibbleLabel, Nat.toDigits_of_lt_base hn]
  rfl

theorem length_decimalLabel (b : UInt8) : (decimalLabel b).length ≤ 3 := by
  have := b.toNat_lt
  rw [decimalLabel, List.length_map, Nat.length_toDigits_le_iff (by decide) (by decide)]
  omega

theorem isHost_toDigits {radix : Nat} (hradix : 1 < radix) (hle : radix ≤ 16) (n : Nat) :
    Label.isHost ((Nat.toDigits radix n).map Ascii.byte) = true := by
  have hdigit {c : Char} (hc : c ∈ Nat.toDigits radix n) := isNameDigit_of_mem hradix hle hc
  have hne : Nat.toDigits radix n ≠ [] := List.ne_nil_of_length_pos Nat.length_toDigits_pos
  rcases List.exists_cons_of_ne_nil hne with ⟨c, cs, hcs⟩
  rw [hcs] at hdigit ⊢
  rw [List.map_cons, Label.isHost, Bool.and_eq_true, List.all_eq_true, List.forall_mem_map]
  exact ⟨(hdigit List.mem_cons_self).isHostByte true,
    fun d hd => (hdigit (List.mem_cons_of_mem c hd)).isHostByte false⟩

theorem wireLength_nibbleLabels (bytes : List UInt8) :
    wireLength (bytes.flatMap nibbleLabels) = 4 * bytes.length + 1 := by
  have hbyte (b : UInt8) : wireLength (nibbleLabels b) = 5 := by
    simp [wireLength_eq_sum, nibbleLabels, length_nibbleLabel (toNat_and_lt b),
      length_nibbleLabel (toNat_shiftRight_lt b)]
  induction bytes with
  | nil => rfl
  | cons b bytes ih =>
    have := wireLength_append (nibbleLabels b) (bytes.flatMap nibbleLabels)
    rw [hbyte, ih] at this
    rw [List.flatMap_cons, List.length_cons]
    omega

theorem wireLength_decimalLabels (bytes : List UInt8) :
    wireLength (bytes.map decimalLabel) ≤ 4 * bytes.length + 1 := by
  have hbyte (b : UInt8) : wireLength [decimalLabel b] ≤ 5 := by
    have := length_decimalLabel b
    simp only [wireLength_eq_sum, List.map_cons, List.map_nil, List.sum_cons, List.sum_nil]
    omega
  induction bytes with
  | nil => decide
  | cons b bytes ih =>
    have hsplit : (b :: bytes).map decimalLabel = [decimalLabel b] ++ bytes.map decimalLabel := rfl
    have := wireLength_append [decimalLabel b] (bytes.map decimalLabel)
    have := hbyte b
    rw [hsplit, List.length_cons]
    omega

theorem wireLength_ofAddress (ip : IpAddress) :
    wireLength (ofAddress ip).labels ≤ maxWireLength := by
  cases ip with
  | v4 ip =>
    have hbytes := wireLength_decimalLabels ip.octets.reverse
    have hlength : ip.octets.reverse.length = 4 := rfl
    have hzone : wireLength (arpa "in-addr") = 14 := by decide
    have := wireLength_append (ip.octets.reverse.map decimalLabel) (arpa "in-addr")
    change wireLength (_ ++ _) ≤ 255
    omega
  | v6 ip =>
    have hbytes := wireLength_nibbleLabels ip.octets.reverse
    have hlength : ip.octets.reverse.length = 16 := rfl
    have hzone : wireLength (arpa "ip6") = 10 := by decide
    have := wireLength_append (ip.octets.reverse.flatMap nibbleLabels) (arpa "ip6")
    change wireLength (_ ++ _) ≤ 255
    omega

theorem isHost_ofAddress (ip : IpAddress) :
    ∀ label ∈ (ofAddress ip).labels, label.isHost = true ∧ label.length ≤ Label.maxLength := by
  have hdecimal (b : UInt8) :
      (decimalLabel b).isHost = true ∧ (decimalLabel b).length ≤ Label.maxLength :=
    ⟨isHost_toDigits (by decide) (by decide) b.toNat,
      Nat.le_trans (length_decimalLabel b) (by decide)⟩
  have hnibble {n : UInt8} (hn : n.toNat < 16) :
      (nibbleLabel n).isHost = true ∧ (nibbleLabel n).length ≤ Label.maxLength :=
    ⟨isHost_toDigits (by decide) (by decide) n.toNat,
      Nat.le_trans (Nat.le_of_eq (length_nibbleLabel hn)) (by decide)⟩
  have hnibbles (b : UInt8) :
      ∀ label ∈ nibbleLabels b, label.isHost = true ∧ label.length ≤ Label.maxLength := by
    rw [nibbleLabels, List.forall_mem_cons, List.forall_mem_singleton]
    exact ⟨hnibble (toNat_and_lt b), hnibble (toNat_shiftRight_lt b)⟩
  have hzone : ∀ family ∈ ["in-addr", "ip6"], ∀ label ∈ arpa family,
      label.isHost = true ∧ label.length ≤ Label.maxLength := by
    decide
  intro label hlabel
  cases ip with
  | v4 ip =>
    rcases List.mem_append.mp hlabel with hlabel | hlabel
    . rcases List.mem_map.mp hlabel with ⟨b, -, rfl⟩
      exact hdecimal b
    . exact hzone "in-addr" (by simp) label hlabel
  | v6 ip =>
    rcases List.mem_append.mp hlabel with hlabel | hlabel
    . rcases List.mem_flatMap.mp hlabel with ⟨b, -, hlabel⟩
      exact hnibbles b label hlabel
    . exact hzone "ip6" (by simp) label hlabel

theorem reverse_eq (ip : IpAddress) : reverse ip = .ok (ofAddress ip) := by
  have hhost := isHost_ofAddress ip
  have hdot : reverseText ip ≠ "." := by
    intro h
    have hlength := congrArg (fun text => text.toList.length) h
    cases ip <;> simp [reverseText] at hlength
  have hextend : (ofAddress ip).labels.foldlM extend [] = .ok (ofAddress ip).labels := by
    rw [foldlM_extend_of_le]
    . rfl
    . exact wireLength_ofAddress ip
  unfold reverse ofPlainText
  rw [if_neg (by simpa using hdot), toList_reverseText,
    HostText.readLabels_dotted fun label hlabel => (hhost label hlabel).1,
    foldlM_push_plainLabel hhost, hextend, mapError_ok]
  cases ip <;> rfl

/-! ### The address is read back from the labels -/

def octet? (label : Label) : Option UInt8 :=
  (Address.whole? Address.octet.read? (label.map fun b => Char.ofNat b.toNat)).map Nat.toUInt8

def nibble? : Label → Option UInt8
  | [b] => (Address.digit? 16 (Char.ofNat b.toNat)).map Nat.toUInt8
  | _ => none

/--
The bytes that are made of hexadecimal digits, the higher one of two first.
-/
def joinNibbles : List UInt8 → Option (List UInt8)
  | [] => some []
  | high :: low :: rest => (joinNibbles rest).map ((high <<< 4 ||| low) :: ·)
  | [_] => none

/--
The address whose bytes, or whose hexadecimal digits, stand in reverse order in front of the domain
for the addresses of its family.
-/
def address? (name : Name) : Option IpAddress :=
  match name.fold.labels.reverse with
  | top :: family :: digits =>
    if [family, top] = arpa "in-addr" then
      ((digits.mapM octet?).bind Ipv4.ofOctets?).map .v4
    else if [family, top] = arpa "ip6" then
      (((digits.mapM nibble?).bind joinNibbles).bind Ipv6.ofOctets?).map .v6
    else
      none
  | _ => none

theorem octet?_decimalLabel (b : UInt8) : octet? (decimalLabel b).fold = some b := by
  have hread : Address.octet.read? (Nat.toDigits 10 b.toNat) = some (b.toNat, []) := by
    rw [← List.append_nil (Nat.toDigits 10 b.toNat), Address.octet_read? b (Address.stops_nil 10)]
  unfold octet? decimalLabel
  rw [fold_map_byte_toDigits (by decide) (by decide), map_byte_toDigits (by decide) (by decide),
    Address.whole?, hread]
  simp

theorem nibble?_nibbleLabel {n : UInt8} (hn : n.toNat < 16) :
    nibble? (nibbleLabel n).fold = some n := by
  have h : ∀ n < 16, nibble? (nibbleLabel (UInt8.ofNat n)).fold = some (UInt8.ofNat n) := by
    decide
  have := h n.toNat hn
  rwa [UInt8.ofNat_toNat] at this

theorem nibble?_nibbleLabels (b : UInt8) :
    ((nibbleLabels b).map Label.fold).reverse.mapM nibble? = some [b >>> 4, b &&& 0xF] := by
  simp [nibbleLabels, nibble?_nibbleLabel (toNat_and_lt b),
    nibble?_nibbleLabel (toNat_shiftRight_lt b)]

theorem mapM_nibble? (bytes : List UInt8) :
    (bytes.flatMap fun b => ((nibbleLabels b).map Label.fold).reverse).mapM nibble?
      =
    some (bytes.flatMap fun (b : UInt8) => [b >>> 4, b &&& 0xF]) := by
  induction bytes with
  | nil => rfl
  | cons b bytes ih =>
    rw [List.flatMap_cons, List.mapM_append, nibble?_nibbleLabels, ih]
    rfl

theorem byte_of_nibbles (b : UInt8) : (b >>> 4) <<< 4 ||| b &&& 0xF = b := by
  have hb := b.toNat_lt
  have hlow : (b &&& 0xF).toNat = b.toNat % 16 := by
    rw [UInt8.toNat_and]
    exact Nat.and_two_pow_sub_one_eq_mod b.toNat 4
  have hhigh : ((b >>> 4) <<< 4).toNat = (b.toNat / 16) <<< 4 := by
    simp [Nat.shiftRight_eq_div_pow, Nat.shiftLeft_eq]
    omega
  apply UInt8.toNat_inj.mp
  rw [UInt8.toNat_or, hlow, hhigh, ← Nat.shiftLeft_add_eq_or_of_lt (by omega), Nat.shiftLeft_eq]
  omega

theorem joinNibbles_flatMap (bytes : List UInt8) :
    joinNibbles (bytes.flatMap fun (b : UInt8) => [b >>> 4, b &&& 0xF]) = some bytes := by
  induction bytes with
  | nil => rfl
  | cons b bytes ih =>
    rw [List.flatMap_cons, List.cons_append, List.cons_append, List.nil_append, joinNibbles, ih,
      byte_of_nibbles]
    rfl

theorem address?_ofAddress (ip : IpAddress) : address? (ofAddress ip) = some ip := by
  let spelled := fun (text : String) => text.toList.map Ascii.byte
  have hzone (family : String) : [spelled family, spelled "arpa"] = arpa family := rfl
  cases ip with
  | v4 ip =>
    have hlabels : (ofAddress (.v4 ip)).fold.labels.reverse
        =
      spelled "arpa" :: spelled "in-addr" :: ip.octets.map fun b => (decimalLabel b).fold := by
      rfl
    have hoctets : (ip.octets.map fun b => (decimalLabel b).fold).mapM octet? = some ip.octets := by
      simp [Ipv4.octets, octet?_decimalLabel]
    unfold address?
    rw [hlabels]
    dsimp only
    rw [if_pos (hzone _), hoctets, Option.bind_some, Ipv4.ofOctets?_octets]
    rfl
  | v6 ip =>
    have hlabels : (ofAddress (.v6 ip)).fold.labels.reverse
        =
      spelled "arpa" :: spelled "ip6" :: ip.octets.flatMap fun b =>
        ((nibbleLabels b).map Label.fold).reverse := by
      rfl
    unfold address?
    rw [hlabels]
    dsimp only
    rw [if_neg (by decide), if_pos (hzone _), mapM_nibble?, Option.bind_some, joinNibbles_flatMap,
      Option.bind_some, Ipv6.ofOctets?_octets]
    rfl

theorem same_ofAddress_iff {a b : IpAddress} :
    (ofAddress a).same (ofAddress b) = true ↔ a = b := by
  constructor
  . intro h
    have haddress : address? (ofAddress a) = address? (ofAddress b) := by
      unfold address?
      rw [same_iff.mp h]
    rw [address?_ofAddress, address?_ofAddress] at haddress
    exact Option.some.inj haddress
  . rintro rfl
    apply same_refl

end Zeroconf.Name
