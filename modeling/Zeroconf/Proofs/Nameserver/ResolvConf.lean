import Zeroconf.Nameserver.ResolvConf
import Zeroconf.Proofs.Address.Reader

/-!
This module contains the grammar of `resolv.conf` and the proof that the reader follows it: each
line is read by itself, and what it lists depends on its first two fields only.
-/

namespace Zeroconf.Nameserver

open Text (Ends IsWord Spaced isBlank)

inductive Numbers : List Char → UInt32 → Prop
  | plain {digits : List Char} {scope : UInt32} (h : Address.scope.Spells digits scope.toNat) :
    Numbers digits scope
  | plus {digits : List Char} {scope : UInt32} (h : Address.scope.Spells digits scope.toNat) :
    Numbers ('+' :: digits) scope

theorem scopeNumber?_eq_some_iff {zone : List Char} {scope : UInt32} :
    scopeNumber? zone = some scope ↔ Numbers zone scope := by
  have hvalue {digits : List Char} :
      (Address.whole? Address.scope.read? digits).map Nat.toUInt32 = some scope
        ↔
      Address.scope.Spells digits scope.toNat := by
    rw [Option.map_eq_some_iff]
    constructor
    . rintro ⟨value, h, rfl⟩
      rw [Address.whole?_eq_some_iff] at h
      have hsize : value.toUInt32.toNat = value := by
        have : value < 4294967296 := h.lt_bound
        simp
        omega
      rw [hsize]
      exact h
    . intro h
      exact ⟨scope.toNat, Address.whole?_eq_some_iff.mpr h, by simp⟩
  unfold scopeNumber?
  constructor
  . intro h
    split at h
    . next hplus =>
      cases zone with
      | nil => contradiction
      | cons c digits =>
        have hc : c = '+' := by simpa using hplus
        rw [hc]
        exact .plus (hvalue.mp h)
    . exact .plain (hvalue.mp h)
  . intro h
    cases h with
    | plain h =>
      rw [if_neg]
      . exact hvalue.mpr h
      . intro hplus
        have hhead : zone.head? = some '+' := by simpa using hplus
        have hdigit := h.isDigit '+' (List.mem_of_head? hhead)
        contradiction
    | plus h => exact hvalue.mpr h

theorem scopeNumber?_eq_none_iff {zone : List Char} :
    scopeNumber? zone = none ↔ ∀ scope, ¬ Numbers zone scope := by
  simp only [← scopeNumber?_eq_some_iff]
  exact Option.eq_none_iff_forall_ne_some

section Fields

variable (zoneIndex : List Char → Option UInt32)

/--
The scope that follows from the zone, if one is given. A zone that nobody knows counts as none.
-/
inductive Scopes : Option (List Char) → UInt32 → Prop
  | none : Scopes none 0
  | number {zone : List Char} {scope : UInt32} (h : Numbers zone scope) : Scopes (some zone) scope
  | name {zone : List Char} {scope : UInt32} (h : ∀ scope, ¬ Numbers zone scope)
    (hindex : zoneIndex zone = some scope) : Scopes (some zone) scope
  | unknown {zone : List Char} (h : ∀ scope, ¬ Numbers zone scope)
    (hindex : zoneIndex zone = .none) : Scopes (some zone) 0

/--
The server at an address, the text of which is followed by a zone or not.
-/
inductive Names (address : List Char) (zone : Option (List Char)) : SocketAddress → Prop
  | v4 {ip : Ipv4} (h : IpAddress.parse? address = some (.v4 ip)) :
    Names address zone (.v4 ip standardPort)
  | v6 {ip : Ipv6} {scope : UInt32} (h : IpAddress.parse? address = some (.v6 ip))
    (hscope : Scopes zoneIndex zone scope) : Names address zone (.v6 ip standardPort scope)

def fieldOf (address : List Char) : Option (List Char) → List Char
  | none => address
  | some zone => address ++ '%' :: zone

inductive Lists : List (List Char) → Option SocketAddress → Prop
  | entry {address : List Char} {zone : Option (List Char)} {server : SocketAddress}
    {words : List (List Char)} (hzone : '%' ∉ address) (h : Names zoneIndex address zone server) :
    Lists ("nameserver".toList :: fieldOf address zone :: words) (some server)
  | malformed {address : List Char} {zone : Option (List Char)} {words : List (List Char)}
    (hzone : '%' ∉ address) (h : IpAddress.parse? address = none) :
    Lists ("nameserver".toList :: fieldOf address zone :: words) none
  | bare : Lists ["nameserver".toList] none
  | other {keyword : List Char} {words : List (List Char)} (h : keyword ≠ "nameserver".toList) :
    Lists (keyword :: words) none
  | empty : Lists [] none

variable {zoneIndex} {address line : List Char} {zone : Option (List Char)} {scope : UInt32}

def scopeOf (zoneIndex : List Char → Option UInt32) : Option (List Char) → UInt32
  | none => 0
  | some zone => (scopeNumber? zone <|> zoneIndex zone).getD 0

theorem scopeOf_eq_iff : scopeOf zoneIndex zone = scope ↔ Scopes zoneIndex zone scope := by
  constructor
  . rintro rfl
    cases zone with
    | none => exact .none
    | some zone =>
      cases hnumber : scopeNumber? zone with
      | some scope =>
        rw [scopeOf, hnumber]
        exact .number (scopeNumber?_eq_some_iff.mp hnumber)
      | none =>
        have h := scopeNumber?_eq_none_iff.mp hnumber
        rw [scopeOf, hnumber]
        cases hindex : zoneIndex zone with
        | some scope => exact .name h hindex
        | none => exact .unknown h hindex
  . intro h
    cases h with
    | none => rfl
    | number h => simp [scopeOf, scopeNumber?_eq_some_iff.mpr h]
    | name h hindex => simp [scopeOf, scopeNumber?_eq_none_iff.mpr h, hindex]
    | unknown h hindex => simp [scopeOf, scopeNumber?_eq_none_iff.mpr h, hindex]

theorem ofField?_eq (hzone : '%' ∉ address) :
    ofField? zoneIndex (fieldOf address zone)
      =
    (IpAddress.parse? address).map fun
      | .v4 ip => .v4 ip standardPort
      | .v6 ip => .v6 ip standardPort (scopeOf zoneIndex zone) := by
  unfold ofField?
  cases zone with
  | none =>
    rw [fieldOf, Text.splitFirst?_of_not_mem hzone]
    dsimp only
    congr
  | some zone =>
    rw [fieldOf, Text.splitFirst?_append hzone]
    rfl

theorem ofField?_eq_some_iff {server : SocketAddress} (hzone : '%' ∉ address) :
    ofField? zoneIndex (fieldOf address zone) = some server
      ↔
    Names zoneIndex address zone server := by
  rw [ofField?_eq hzone, Option.map_eq_some_iff]
  constructor
  . rintro ⟨ip, hip, rfl⟩
    cases ip with
    | v4 ip => exact .v4 hip
    | v6 ip => exact .v6 hip (scopeOf_eq_iff.mp rfl)
  . intro h
    cases h with
    | v4 h => exact ⟨_, h, rfl⟩
    | v6 h hscope =>
      rw [← scopeOf_eq_iff.mpr hscope]
      exact ⟨_, h, rfl⟩

theorem exists_fieldOf (field : List Char) :
    ∃ address zone, '%' ∉ address ∧ field = fieldOf address zone := by
  by_cases hmem : '%' ∈ field
  . rcases List.eq_append_cons_of_mem hmem with ⟨address, zone, rfl, hzone⟩
    exact ⟨address, some zone, hzone, rfl⟩
  . exact ⟨field, none, hmem, rfl⟩

def IsPlain (cs : List Char) : Prop := ∀ c ∈ cs, c ≠ '#' ∧ c ≠ ';'

def IsComment (cs : List Char) : Prop := ∀ c ∈ cs.head?, c = '#' ∨ c = ';'

/--
What a line lists: words with blanks around them, and a comment behind them.
-/
inductive Line (zoneIndex : List Char → Option UInt32) : List Char → Option SocketAddress → Prop
  | mk {content comment : List Char} {words : List (List Char)} {server : Option SocketAddress}
    (hcontent : IsPlain content) (hcomment : IsComment comment) (hwords : Spaced content words)
    (hlists : Lists zoneIndex words server) : Line zoneIndex (content ++ comment) server

def ofWords? (zoneIndex : List Char → Option UInt32) : List (List Char) → Option SocketAddress
  | keyword :: field :: _ =>
    if keyword == "nameserver".toList then ofField? zoneIndex field else none
  | _ => none

theorem ofWords?_eq_iff {words : List (List Char)} {server : Option SocketAddress} :
    ofWords? zoneIndex words = server ↔ Lists zoneIndex words server := by
  constructor
  . rintro rfl
    cases words with
    | nil => exact .empty
    | cons keyword words =>
      by_cases hkeyword : keyword = "nameserver".toList
      . rw [hkeyword]
        cases words with
        | nil => exact .bare
        | cons field words =>
          rcases exists_fieldOf field with ⟨address, zone, hzone, rfl⟩
          rw [ofWords?, if_pos (beq_self_eq_true _)]
          cases hserver : ofField? zoneIndex (fieldOf address zone) with
          | some server => exact .entry hzone ((ofField?_eq_some_iff hzone).mp hserver)
          | none =>
            rw [ofField?_eq hzone, Option.map_eq_none_iff] at hserver
            exact .malformed hzone hserver
      . have hnone : ofWords? zoneIndex (keyword :: words) = none := by
          cases words with
          | nil => rfl
          | cons field words => rw [ofWords?, if_neg (by simpa using hkeyword)]
        rw [hnone]
        exact .other hkeyword
  . intro h
    cases h with
    | entry hzone h =>
      rw [ofWords?, if_pos (beq_self_eq_true _)]
      exact (ofField?_eq_some_iff hzone).mpr h
    | malformed hzone h =>
      rw [ofWords?, if_pos (beq_self_eq_true _), ofField?_eq hzone, h]
      rfl
    | bare => rfl
    | @other keyword words h =>
      cases words with
      | nil => rfl
      | cons field words => rw [ofWords?, if_neg (by simpa using h)]
    | empty => rfl

theorem ofLine?_append {content comment : List Char} (hcontent : IsPlain content)
    (hcomment : IsComment comment) :
    ofLine? zoneIndex (content ++ comment) = ofWords? zoneIndex (Text.fields content) := by
  unfold ofLine?
  rw [Text.takeWhile_append]
  . rfl
  . simpa [IsPlain] using hcontent
  . intro c hc
    rcases hcomment c hc with rfl | rfl <;> rfl

theorem exists_comment (line : List Char) :
    ∃ content comment, IsPlain content ∧ IsComment comment ∧ line = content ++ comment := by
  refine ⟨line.takeWhile fun c => c != '#' && c != ';',
    line.dropWhile fun c => c != '#' && c != ';', ?_, ?_, List.takeWhile_append_dropWhile.symm⟩
  . intro c hc
    simpa using List.mem_takeWhile_imp hc
  . intro c hc
    have := Text.head?_dropWhile (fun c => c != '#' && c != ';') line c hc
    rw [or_iff_not_imp_left]
    simpa using this

theorem ofLine?_eq_iff {server : Option SocketAddress} :
    ofLine? zoneIndex line = server ↔ Line zoneIndex line server := by
  constructor
  . rintro rfl
    rcases exists_comment line with ⟨content, comment, hcontent, hcomment, rfl⟩
    rw [ofLine?_append hcontent hcomment]
    exact .mk hcontent hcomment (Text.spaced_fields content) (ofWords?_eq_iff.mp rfl)
  . rintro ⟨hcontent, hcomment, hwords, hlists⟩
    rw [ofLine?_append hcontent hcomment, Text.fields_eq_iff.mpr hwords]
    exact ofWords?_eq_iff.mpr hlists

theorem ofLine?_append_return (line : List Char) :
    ofLine? zoneIndex (line ++ ['\r']) = ofLine? zoneIndex line := by
  rcases exists_comment line with ⟨content, comment, hcontent, hcomment, rfl⟩
  rw [ofLine?_append hcontent hcomment, List.append_assoc]
  cases comment with
  | nil =>
    have hplain : IsPlain (content ++ ['\r']) := by
      rw [IsPlain, List.forall_mem_append]
      exact ⟨hcontent, by simp⟩
    have hnone : IsComment [] := fun c hc => by contradiction
    rw [List.nil_append, ← List.append_nil (content ++ ['\r']), ofLine?_append hplain hnone,
      Text.fields_append_blank (by decide)]
  | cons c comment => exact ofLine?_append hcontent hcomment

theorem ofLine?_stripReturn (line : List Char) :
    ofLine? zoneIndex (Text.lines.stripReturn line) = ofLine? zoneIndex line := by
  unfold Text.lines.stripReturn
  split
  . next hreturn =>
    have hlast : line = line.dropLast ++ ['\r'] := by
      rw [List.dropLast_append_getLast?]
      simpa using hreturn
    rw [hlast, ofLine?_append_return, ← hlast]
  . rfl

/--
The lines that a text is laid out in, with what they list. A line ends with `\n` or `\r\n`, and the
last one may have no end.
-/
inductive Laid (zoneIndex : List Char → Option UInt32) : List Char → List SocketAddress → Prop
  | last {line : List Char} {server : Option SocketAddress} (hnewline : '\n' ∉ line)
    (hline : Line zoneIndex line server) : Laid zoneIndex line server.toList
  | lf {line rest : List Char} {server : Option SocketAddress} {servers : List SocketAddress}
    (hnewline : '\n' ∉ line) (hline : Line zoneIndex line server)
    (hrest : Laid zoneIndex rest servers) :
    Laid zoneIndex (line ++ '\n' :: rest) (server.toList ++ servers)
  | crlf {line rest : List Char} {server : Option SocketAddress} {servers : List SocketAddress}
    (hnewline : '\n' ∉ line) (hline : Line zoneIndex line server)
    (hrest : Laid zoneIndex rest servers) :
    Laid zoneIndex (line ++ '\r' :: '\n' :: rest) (server.toList ++ servers)

theorem ofText_of_not_mem (hnewline : '\n' ∉ line) :
    ofText zoneIndex (String.ofList line) = (ofLine? zoneIndex line).toList := by
  rw [ofText, String.toList_ofList, Text.lines_of_not_mem hnewline]
  split
  . next h =>
    rw [h]
    rfl
  . cases hserver : ofLine? zoneIndex line <;> simp [hserver]

theorem ofText_append (hnewline : '\n' ∉ line) (rest : List Char) :
    ofText zoneIndex (String.ofList (line ++ '\n' :: rest))
      =
    (ofLine? zoneIndex line).toList ++ ofText zoneIndex (String.ofList rest) := by
  unfold ofText
  rw [String.toList_ofList, String.toList_ofList, Text.lines_append hnewline,
    List.filterMap_cons, ofLine?_stripReturn]
  cases ofLine? zoneIndex line <;> rfl

theorem Laid.ofText_eq {text : List Char} {servers : List SocketAddress}
    (h : Laid zoneIndex text servers) : ofText zoneIndex (String.ofList text) = servers := by
  induction h with
  | last hnewline hline => rw [ofText_of_not_mem hnewline, ofLine?_eq_iff.mpr hline]
  | lf hnewline hline hrest ih =>
    rw [ofText_append hnewline, ofLine?_eq_iff.mpr hline, ih]
  | @crlf line rest server servers hnewline hline hrest ih =>
    have hreturn : '\n' ∉ line ++ ['\r'] := by simpa using hnewline
    rw [List.append_cons, ofText_append hreturn, ofLine?_append_return, ofLine?_eq_iff.mpr hline,
      ih]

theorem laid_ofText (text : List Char) :
    Laid zoneIndex text (ofText zoneIndex (String.ofList text)) := by
  induction hlength : text.length using Nat.strongRecOn generalizing text with
  | ind length ih =>
    by_cases hmem : '\n' ∈ text
    . rcases List.eq_append_cons_of_mem hmem with ⟨line, rest, rfl, hnewline⟩
      have hshorter : rest.length < length := by
        simp only [List.length_append, List.length_cons] at hlength
        omega
      rw [ofText_append hnewline]
      exact .lf hnewline (ofLine?_eq_iff.mp rfl) (ih rest.length hshorter rest rfl)
    . rw [ofText_of_not_mem hmem]
      exact .last hmem (ofLine?_eq_iff.mp rfl)

theorem ofText_eq_flatMap (text : String) :
    ofText zoneIndex text
      =
    (Text.lines text.toList).flatMap fun line => ofText zoneIndex (String.ofList line) := by
  rw [ofText, List.filterMap_eq_flatMap_toList]
  refine List.flatMap_congr fun line hline => ?_
  exact (ofText_of_not_mem (Text.not_mem_of_mem_lines hline)).symm

/-!
Servers as they are written.
-/

def IsSolid (cs : List Char) : Prop := ∀ c ∈ cs, isBlank c = false ∧ c ≠ '#' ∧ c ≠ ';'

/--
The ways in which a server at the standard port is written: by the text of its address, and with the
zone that its scope follows from.
-/
inductive Spelled (zoneIndex : List Char → Option UInt32) : SocketAddress → List Char → Prop
  | v4 (ip : Ipv4) : Spelled zoneIndex (.v4 ip standardPort) ip.text.toList
  | v6 (ip : Ipv6) : Spelled zoneIndex (.v6 ip standardPort 0) ip.text.toList
  | zoned (ip : Ipv6) {zone : List Char} {scope : UInt32} (hzone : IsSolid zone)
    (hscope : Scopes zoneIndex (some zone) scope) :
    Spelled zoneIndex (.v6 ip standardPort scope) (ip.text.toList ++ '%' :: zone)

/--
What may stand around a field: blanks in front of the keyword and between the two, further fields
behind it, and a comment.
-/
structure Margins where
  indent : List Char
  gap : List Char
  behind : List Char
  comment : List Char
  blank_indent : ∀ c ∈ indent, isBlank c = true
  blank_gap : ∀ c ∈ gap, isBlank c = true
  gap_ne_nil : gap ≠ []
  ends_behind : Ends behind
  isPlain_behind : IsPlain behind
  isComment : IsComment comment

def Margins.lineOf (margins : Margins) (field : List Char) : List Char :=
  margins.indent ++ ("nameserver".toList ++ (margins.gap ++ (field ++ margins.behind))) ++
    margins.comment

theorem solid_of_appears {c : Char} (h : Address.Appears c) :
    (isBlank c = false ∧ c ≠ '#' ∧ c ≠ ';') ∧ c ≠ '%' := by
  rcases h with rfl | rfl | ⟨d, hd, rfl⟩
  . decide
  . decide
  . have hdigits : ∀ d < 16, (isBlank (Nat.digitChar d) = false ∧ Nat.digitChar d ≠ '#' ∧
        Nat.digitChar d ≠ ';') ∧ Nat.digitChar d ≠ '%' := by
      decide
    exact hdigits d hd

theorem isPlain_of_blank {cs : List Char} (h : ∀ c ∈ cs, isBlank c = true) : IsPlain cs := by
  intro c hc
  constructor
  . rintro rfl
    exact absurd (h _ hc) (by decide)
  . rintro rfl
    exact absurd (h _ hc) (by decide)

theorem spelled_number (ip : Ipv6) (scope : UInt32) :
    Spelled zoneIndex (.v6 ip standardPort scope)
      (ip.text.toList ++ '%' :: (toString scope.toNat).toList) := by
  rw [Nat.toString_eq_repr, Nat.toList_repr]
  refine .zoned ip (fun c hc => ?_) (.number (.plain ?_))
  . exact (solid_of_appears (Address.appears_toDigits (by decide) (by decide) c hc)).1
  . exact Address.spells_toDigits (by decide) (by decide) scope.toNat_lt
      fun most hmost => by contradiction

theorem Spelled.names {server : SocketAddress} {field : List Char}
    (h : Spelled zoneIndex server field) :
    IsSolid field ∧ field ≠ [] ∧ ∃ address zone,
      '%' ∉ address ∧ field = fieldOf address zone ∧ Names zoneIndex address zone server := by
  have hsolid (ip : IpAddress) : IsSolid ip.text.toList := fun c hc =>
    (solid_of_appears (ip.appears_text c hc)).1
  have hzone (ip : IpAddress) : '%' ∉ ip.text.toList := fun hc =>
    (solid_of_appears (ip.appears_text _ hc)).2 rfl
  have hne (ip : IpAddress) : ip.text.toList ≠ [] := by
    intro hnil
    have hparse := ip.parse?_text
    rw [hnil] at hparse
    contradiction
  cases h with
  | v4 ip =>
    refine ⟨hsolid (.v4 ip), hne (.v4 ip), _, none, hzone (.v4 ip), rfl, ?_⟩
    exact .v4 (IpAddress.parse?_text (.v4 ip))
  | v6 ip =>
    refine ⟨hsolid (.v6 ip), hne (.v6 ip), _, none, hzone (.v6 ip), rfl, ?_⟩
    exact .v6 (IpAddress.parse?_text (.v6 ip)) .none
  | @zoned ip zone scope hwhole hscope =>
    refine ⟨?_, by simp, _, some zone, hzone (.v6 ip), rfl, ?_⟩
    . rw [IsSolid, List.forall_mem_append, List.forall_mem_cons]
      exact ⟨hsolid (.v6 ip), by decide, hwhole⟩
    . exact .v6 (IpAddress.parse?_text (.v6 ip)) hscope

theorem Margins.ends_gap (margins : Margins) (cs : List Char) : Ends (margins.gap ++ cs) := by
  rcases List.exists_cons_of_ne_nil margins.gap_ne_nil with ⟨c, gap, hgap⟩
  have hblank := margins.blank_gap
  rw [hgap] at hblank ⊢
  intro d hd
  rw [← Option.some.inj hd]
  exact hblank c List.mem_cons_self

theorem Margins.line_lineOf (margins : Margins) {server : SocketAddress} {field : List Char}
    (h : Spelled zoneIndex server field) : Line zoneIndex (margins.lineOf field) (some server) := by
  rcases h.names with ⟨hsolid, hne, address, zone, hzone, rfl, hnames⟩
  have hkeyword : IsWord "nameserver".toList := ⟨by decide, by simp [isBlank]⟩
  have hfield : IsWord (fieldOf address zone) := ⟨hne, fun c hc => (hsolid c hc).1⟩
  refine .mk ?_ margins.isComment
    (.cons margins.blank_indent hkeyword (margins.ends_gap _)
      (.cons margins.blank_gap hfield margins.ends_behind (Text.spaced_fields _)))
    (.entry hzone hnames)
  simp only [IsPlain, List.forall_mem_append]
  exact ⟨isPlain_of_blank margins.blank_indent, by simp, isPlain_of_blank margins.blank_gap,
    fun c hc => (hsolid c hc).2, margins.isPlain_behind⟩

/--
A text is read line by line: what it lists is what its lines list, one after the other, and that is
what the grammar says. The line of a server as it is written lists this server, in whatever margins,
and the number of any scope is a zone that the scope follows from.
-/
theorem ofText_exact (zoneIndex : List Char → Option UInt32) :
    (∀ text, ofText zoneIndex text
      = (Text.lines text.toList).flatMap fun line => ofText zoneIndex (String.ofList line)) ∧
    (∀ text servers, ofText zoneIndex text = servers ↔ Laid zoneIndex text.toList servers) ∧
    (∀ (margins : Margins) server field, Spelled zoneIndex server field →
      Line zoneIndex (margins.lineOf field) (some server)) ∧
    ∀ ip scope, Spelled zoneIndex (.v6 ip standardPort scope)
      (ip.text.toList ++ '%' :: (toString scope.toNat).toList) := by
  refine ⟨ofText_eq_flatMap, ?_, fun margins server field => margins.line_lineOf, spelled_number⟩
  intro text servers
  have htext : String.ofList text.toList = text := String.ofList_toList
  constructor
  . rintro rfl
    have hlaid : Laid zoneIndex text.toList _ := laid_ofText text.toList
    rwa [htext] at hlaid
  . intro h
    have hread := h.ofText_eq
    rwa [htext] at hread

theorem ofText_exact_zones :
    let zoneIndex := fun zone => if zone == "eth0".toList then some 7 else none
    Laid zoneIndex
      ("nameserver\tfe80::1%eth0  # lan\r\nnameserver fe80::2%3\nnameserver fe80::3%x;\n" ++
        "nameserver ?\nnameserver 10.0.0.2 more").toList
      [.v6 ⟨0xFE80, 0, 0, 0, 0, 0, 0, 1⟩ 53 7, .v6 ⟨0xFE80, 0, 0, 0, 0, 0, 0, 2⟩ 53 3,
        .v6 ⟨0xFE80, 0, 0, 0, 0, 0, 0, 3⟩ 53 0, .v4 ⟨10, 0, 0, 2⟩ 53] ∧
    Line zoneIndex "nameserver\tfe80::2%3 # lan".toList
      (some (.v6 ⟨0xFE80, 0, 0, 0, 0, 0, 0, 2⟩ 53 3)) := by
  intro zoneIndex
  rcases ofText_exact zoneIndex with ⟨-, hlaid, hline, hspelled⟩
  let margins : Margins :=
    { indent := []
      gap := ['\t']
      behind := [' ']
      comment := "# lan".toList
      blank_indent := by simp
      blank_gap := by simp [isBlank]
      gap_ne_nil := by simp
      ends_behind := by simp [Ends, isBlank]
      isPlain_behind := by simp [IsPlain]
      isComment := by simp [IsComment] }
  refine ⟨(hlaid _ _).mp (by decide), ?_⟩
  have hshape : margins.lineOf ((Ipv6.text ⟨0xFE80, 0, 0, 0, 0, 0, 0, 2⟩).toList ++
      '%' :: (toString (3 : UInt32).toNat).toList) = "nameserver\tfe80::2%3 # lan".toList := by
    decide
  rw [← hshape]
  exact hline margins _ _ (hspelled _ 3)

end Fields

end Zeroconf.Nameserver
