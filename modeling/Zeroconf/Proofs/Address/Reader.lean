import Zeroconf.Address.Reader
import Zeroconf.Proofs.Address
import Zeroconf.Proofs.Text.Space

/-!
This module contains the proof that the reader of IP addresses reads the text of every address as
this address.
-/

namespace Zeroconf

namespace Address

open Text (takeWhile_append dropWhile_append head?_dropWhile)

/--
The value of digits, the first of which counts most.
-/
def valueOf (radix : Nat) (digits : List Char) : Nat :=
  digits.foldl (fun n c => n * radix + (digit? radix c).getD 0) 0

/--
Whether `digits` is a way to write `value` as the numeral demands it.
-/
structure Numeral.Spells (numeral : Numeral) (digits : List Char) (value : Nat) : Prop where
  ne_nil : digits ≠ []
  isDigit : ∀ c ∈ digits, (digit? numeral.radix c).isSome = true
  length_le : ∀ most, numeral.maxDigits = some most → digits.length ≤ most
  unpadded : numeral.leadingZero = false → 1 < digits.length → digits.head? ≠ some '0'
  valueOf_eq : valueOf numeral.radix digits = value
  lt_bound : value < numeral.bound

def Stops (radix : Nat) (cs : List Char) : Prop := ∀ c ∈ cs.head?, digit? radix c = none

theorem stops_nil (radix : Nat) : Stops radix [] := by
  intro c hc
  contradiction

theorem stops_cons {radix : Nat} {c : Char} (hc : digit? radix c = none) (cs : List Char) :
    Stops radix (c :: cs) := by
  intro d hd
  rw [← Option.some.inj hd]
  exact hc

variable {numeral : Numeral} {digits cs rest : List Char} {value : Nat}

theorem read?_of_spells (h : numeral.Spells digits value) (hrest : Stops numeral.radix rest) :
    numeral.read? (digits ++ rest) = some (value, rest) := by
  have hstop : ∀ c ∈ rest.head?, (digit? numeral.radix c).isSome = false := by
    intro c hc
    rw [hrest c hc]
    rfl
  have hlength : numeral.maxDigits.any (digits.length > ·) = false := by
    cases hmost : numeral.maxDigits with
    | none => rfl
    | some most => simpa using h.length_le most hmost
  have hpadded : (!numeral.leadingZero && digits.length > 1 && digits.head? == some '0')
      = false := by
    simpa using h.unpadded
  have hvalue := h.valueOf_eq
  unfold valueOf at hvalue
  unfold Numeral.read?
  dsimp only
  rw [takeWhile_append h.isDigit hstop, dropWhile_append h.isDigit hstop, hvalue, hlength, hpadded]
  simp [h.ne_nil, h.lt_bound]

theorem spells_of_read? (h : numeral.read? cs = some (value, rest)) :
    ∃ digits, cs = digits ++ rest ∧ numeral.Spells digits value := by
  unfold Numeral.read? at h
  dsimp only at h
  split at h
  . contradiction
  . next hgood =>
    injection h with h
    injection h with hvalue hrest
    simp only [Bool.or_eq_true, decide_eq_true_eq, not_or] at hgood
    rcases hgood with ⟨⟨⟨hnonempty, hlength⟩, hpadded⟩, hbound⟩
    refine ⟨cs.takeWhile fun c => (digit? numeral.radix c).isSome, ?_, ?_⟩
    . rw [← hrest, List.takeWhile_append_dropWhile]
    . constructor
      . simpa using hnonempty
      . intro c hc
        simpa using List.mem_takeWhile_imp hc
      . intro most hmost
        rw [hmost] at hlength
        simpa using hlength
      . intro hleading hseveral
        rw [hleading] at hpadded
        simpa [hseveral] using hpadded
      . exact hvalue
      . rw [← hvalue]
        exact Nat.not_le.mp hbound

theorem whole?_eq_some_iff :
    whole? numeral.read? cs = some value ↔ numeral.Spells cs value := by
  constructor
  . intro h
    unfold whole? at h
    split at h
    . next hread =>
      injection h with h
      rcases spells_of_read? hread with ⟨digits, hcs, hspells⟩
      rw [List.append_nil] at hcs
      rw [hcs, ← h]
      exact hspells
    . contradiction
  . intro h
    have hread := read?_of_spells h (stops_nil numeral.radix)
    rw [List.append_nil] at hread
    rw [whole?, hread]

theorem read?_eq_none {c : Char} (hc : digit? numeral.radix c = none) (cs : List Char) :
    numeral.read? (c :: cs) = none := by
  cases hread : numeral.read? (c :: cs) with
  | none => rfl
  | some result =>
    rcases spells_of_read? hread with ⟨digits, hcs, hspells⟩
    rcases List.exists_cons_of_ne_nil hspells.ne_nil with ⟨d, ds, hdigits⟩
    have hd := hspells.isDigit d (by simp [hdigits])
    rw [hdigits] at hcs
    injection hcs with hcd
    rw [← hcd, hc] at hd
    contradiction

/-!
What the printer of numbers puts out.
-/

section Digits

variable {radix n : Nat}

theorem digit?_digitChar {d : Nat} (hd : d < radix) (hradix : radix ≤ 16) :
    digit? radix (Nat.digitChar d) = some d := by
  have h : ∀ radix ≤ 16, ∀ d < radix, digit? radix (Nat.digitChar d) = some d := by decide
  exact h radix hradix d hd

theorem mem_toDigits (hradix : 1 < radix) {c : Char} (hc : c ∈ Nat.toDigits radix n) :
    ∃ d < radix, Nat.digitChar d = c := by
  induction n using Nat.strongRecOn with
  | ind n ih =>
    rw [Nat.toDigits_eq_if hradix] at hc
    split at hc
    . next hn =>
      exact ⟨n, hn, (List.mem_singleton.mp hc).symm⟩
    . next hn =>
      rcases List.mem_append.mp hc with hc | hc
      . exact ih (n / radix) (Nat.div_lt_self (by omega) hradix) hc
      . exact ⟨n % radix, Nat.mod_lt n (by omega), (List.mem_singleton.mp hc).symm⟩

theorem valueOf_toDigits (hradix : 1 < radix) (hle : radix ≤ 16) :
    valueOf radix (Nat.toDigits radix n) = n := by
  induction n using Nat.strongRecOn with
  | ind n ih =>
    rw [Nat.toDigits_eq_if hradix]
    split
    . next hn => simp [valueOf, digit?_digitChar hn hle]
    . next hn =>
      have hlast : n % radix < radix := Nat.mod_lt n (by omega)
      have hfront := ih (n / radix) (Nat.div_lt_self (by omega) hradix)
      unfold valueOf at hfront ⊢
      rw [List.foldl_append, hfront]
      simp [digit?_digitChar hlast hle, Nat.div_add_mod']

theorem head?_toDigits (hradix : 1 < radix) (hle : radix ≤ 16) (hn : n ≠ 0) :
    (Nat.toDigits radix n).head? ≠ some '0' := by
  induction n using Nat.strongRecOn with
  | ind n ih =>
    rw [Nat.toDigits_eq_if hradix]
    split
    . next hlt =>
      intro hzero
      have hchar : Nat.digitChar n = '0' := by simpa using hzero
      have hdigit := digit?_digitChar hlt hle
      rw [hchar, show '0' = Nat.digitChar 0 from rfl, digit?_digitChar (by omega) hle] at hdigit
      exact hn (Option.some.inj hdigit).symm
    . next hlt =>
      have hfront := ih (n / radix) (Nat.div_lt_self (by omega) hradix)
        (Nat.div_ne_zero_iff.mpr ⟨by omega, by omega⟩)
      have hne : Nat.toDigits radix (n / radix) ≠ [] :=
        List.ne_nil_of_length_pos Nat.length_toDigits_pos
      rw [List.head?_append_of_ne_nil _ hne]
      exact hfront

theorem spells_toDigits (hradix : 1 < numeral.radix) (hle : numeral.radix ≤ 16)
    (hbound : n < numeral.bound)
    (hlength : ∀ most, numeral.maxDigits = some most → 0 < most ∧ n < numeral.radix ^ most) :
    numeral.Spells (Nat.toDigits numeral.radix n) n where
  ne_nil := List.ne_nil_of_length_pos Nat.length_toDigits_pos
  isDigit c hc := by
    rcases mem_toDigits hradix hc with ⟨d, hd, rfl⟩
    rw [digit?_digitChar hd hle]
    rfl
  length_le most hmost := by
    rw [Nat.length_toDigits_le_iff hradix (hlength most hmost).1]
    exact (hlength most hmost).2
  unpadded _ hseveral := by
    refine head?_toDigits hradix hle ?_
    rintro rfl
    rw [Nat.toDigits_of_lt_base (by omega)] at hseveral
    contradiction
  valueOf_eq := valueOf_toDigits hradix hle
  lt_bound := hbound

end Digits

/-!
IPv4 addresses.
-/

theorem octet_read? (o : UInt8) (hrest : Stops 10 rest) :
    octet.read? (Nat.toDigits 10 o.toNat ++ rest) = some (o.toNat, rest) := by
  refine read?_of_spells ?_ hrest
  refine spells_toDigits (by decide) (by decide) o.toNat_lt fun most hmost => ?_
  have : 3 = most := by simpa [octet] using hmost
  subst this
  have := o.toNat_lt
  exact ⟨by decide, by simp only [octet]; omega⟩

theorem toList_text_v4 (ip : Ipv4) :
    ip.text.toList
      =
    Nat.toDigits 10 ip.a.toNat ++ '.' :: (Nat.toDigits 10 ip.b.toNat ++
      '.' :: (Nat.toDigits 10 ip.c.toNat ++ '.' :: Nat.toDigits 10 ip.d.toNat)) := by
  simp [Ipv4.text, Ipv4.octets, Nat.toString_eq_repr, Nat.toList_repr]

theorem readV4?_text (ip : Ipv4) : readV4? ip.text.toList = some (ip, []) := by
  have hdot (cs : List Char) : Stops 10 ('.' :: cs) := stops_cons (by decide) cs
  have hlast : octet.read? (Nat.toDigits 10 ip.d.toNat) = some (ip.d.toNat, []) := by
    rw [← List.append_nil (Nat.toDigits 10 ip.d.toNat), octet_read? ip.d (stops_nil 10)]
  rw [toList_text_v4]
  unfold readV4?
  rw [octet_read? ip.a (hdot _)]
  simp [skip?, octet_read?, hdot, hlast]

theorem readV4?_eq_none_of_not_mem (h : '.' ∉ cs) : readV4? cs = none := by
  unfold readV4?
  cases hread : octet.read? cs with
  | none => rfl
  | some result =>
    rcases result with ⟨a, rest⟩
    rcases spells_of_read? hread with ⟨digits, rfl, -⟩
    have hrest : '.' ∉ rest := fun hmem => h (List.mem_append_right digits hmem)
    cases rest with
    | nil => rfl
    | cons c rest =>
      have hc : c ≠ '.' := by
        rintro rfl
        exact hrest List.mem_cons_self
      have hskip : skip? '.' (c :: rest) = none := by simp [skip?, hc]
      simp [hskip]

/-!
IPv6 addresses.
-/

theorem group_read? (g : UInt16) (hrest : Stops 16 rest) :
    group.read? (Nat.toDigits 16 g.toNat ++ rest) = some (g.toNat, rest) := by
  refine read?_of_spells ?_ hrest
  refine spells_toDigits (by decide) (by decide) g.toNat_lt fun most hmost => ?_
  have : 4 = most := by simpa [group] using hmost
  subst this
  have := g.toNat_lt
  exact ⟨by decide, by simp only [group]; omega⟩

def colons (gs : List UInt16) : List Char := gs.flatMap fun g => ':' :: Nat.toDigits 16 g.toNat

def joined : List UInt16 → List Char
  | [] => []
  | g :: gs => Nat.toDigits 16 g.toNat ++ colons gs

theorem toList_join (gs : List UInt16) : (Ipv6.text.join gs).toList = joined gs := by
  have hcolons (piece : List Char) (pieces : List (List Char)) :
      [':'].intercalate (piece :: pieces) = piece ++ pieces.flatMap (':' :: ·) := by
    induction pieces generalizing piece with
    | nil => simp
    | cons next pieces ih => simp [List.intercalate_cons_cons, ih]
  unfold Ipv6.text.join
  rw [String.toList_intercalate]
  cases gs with
  | nil => rfl
  | cons g gs =>
    rw [List.map_cons, List.map_cons]
    refine (hcolons _ _).trans ?_
    simp [joined, colons, Ipv6.hex, List.flatMap_map]

theorem dot_not_mem_toDigits (n : Nat) : '.' ∉ Nat.toDigits 16 n := by
  intro h
  rcases mem_toDigits (by decide) h with ⟨d, hd, hdot⟩
  have : ∀ d < 16, Nat.digitChar d ≠ '.' := by decide
  exact this d hd hdot

theorem dot_not_mem_colons (gs : List UInt16) : '.' ∉ colons gs := by
  simp [colons, dot_not_mem_toDigits]

theorem dot_not_mem_joined (gs : List UInt16) : '.' ∉ joined gs := by
  cases gs with
  | nil => exact List.not_mem_nil
  | cons g gs => simp [joined, dot_not_mem_toDigits, dot_not_mem_colons]

/--
Where the next group starts; there is a colon in front of all but the first one.
-/
def start? (first : Bool) (cs : List Char) : Option (List Char) :=
  if first then some cs else skip? ':' cs

theorem mem_of_start? {first : Bool} {start : List Char} (h : start? first cs = some start)
    {c : Char} (hc : c ∈ start) : c ∈ cs := by
  cases first with
  | true =>
    cases h
    exact hc
  | false =>
    cases cs with
    | nil => contradiction
    | cons d cs =>
      have hskip : (if d == ':' then some cs else none) = some start := h
      split at hskip
      . cases hskip
        exact List.mem_cons_of_mem d hc
      . contradiction

theorem bind_readV4?_eq_none (first : Bool) (hdot : '.' ∉ cs) :
    (start? first cs).bind readV4? = none := by
  cases hstart : start? first cs with
  | none => rfl
  | some start => exact readV4?_eq_none_of_not_mem fun hmem => hdot (mem_of_start? hstart hmem)

theorem readGroups_succ (room : Nat) {first : Bool} (hv4 : (start? first cs).bind readV4? = none) :
    readGroups (room + 1) first cs
      =
    match (start? first cs).bind group.read? with
    | none => ([], false, cs)
    | some (g, rest) =>
      (g.toUInt16 :: (readGroups room false rest).1, (readGroups room false rest).2) := by
  have hembedded : (if room ≥ 1 then (start? first cs).bind readV4? else none) = none := by
    rw [hv4, ite_self]
  rw [readGroups]
  unfold start? at hembedded ⊢
  rewrite [hembedded]
  rfl

theorem readGroups_first (room : Nat) (hv4 : readV4? cs = none) :
    readGroups (room + 1) true cs
      =
    match group.read? cs with
    | none => ([], false, cs)
    | some (g, rest) =>
      (g.toUInt16 :: (readGroups room false rest).1, (readGroups room false rest).2) :=
  @readGroups_succ cs room true hv4

/--
Whether the text behind some groups tells that there are no more of them.
-/
inductive Over : List Char → Prop
  | nil : Over []
  | gap (cs : List Char) : Over (':' :: ':' :: cs)

theorem readGroups_over (hrest : Over rest) (hdot : '.' ∉ rest) (room : Nat) (first : Bool) :
    readGroups room first rest = ([], false, rest) := by
  have hcolon (cs : List Char) : group.read? (':' :: cs) = none := read?_eq_none (by decide) cs
  cases room with
  | zero => rfl
  | succ room =>
    have hread : (start? first rest).bind group.read? = none := by
      cases hrest with
      | nil => cases first <;> rfl
      | gap cs => cases first <;> simp [start?, skip?, hcolon]
    rw [readGroups_succ room (bind_readV4?_eq_none first hdot), hread]

theorem Over.stops (h : Over rest) (gs : List UInt16) : Stops 16 (colons gs ++ rest) := by
  cases gs with
  | nil =>
    cases h with
    | nil => exact stops_nil 16
    | gap cs => exact stops_cons (by decide) _
  | cons g gs => exact stops_cons (by decide) _

theorem readGroups_colons {gs : List UInt16} {room : Nat} (hroom : gs.length ≤ room)
    (hdot : '.' ∉ rest) (hrest : Over rest) :
    readGroups room false (colons gs ++ rest) = (gs, false, rest) := by
  induction gs generalizing room with
  | nil => exact readGroups_over hrest hdot room false
  | cons g gs ih =>
    cases room with
    | zero => contradiction
    | succ room =>
      have hstart : start? false (colons (g :: gs) ++ rest)
          = some (Nat.toDigits 16 g.toNat ++ (colons gs ++ rest)) := by
        simp [start?, skip?, colons]
      have hv4 : (start? false (colons (g :: gs) ++ rest)).bind readV4? = none :=
        bind_readV4?_eq_none false (by simp [dot_not_mem_colons, hdot])
      rw [readGroups_succ room hv4, hstart, Option.bind_some, group_read? g (hrest.stops gs)]
      simp [ih (Nat.le_of_succ_le_succ hroom)]

theorem readGroups_joined {gs : List UInt16} {room : Nat} (hroom : gs.length ≤ room)
    (hdot : '.' ∉ rest) (hrest : Over rest) :
    readGroups room true (joined gs ++ rest) = (gs, false, rest) := by
  cases gs with
  | nil => exact readGroups_over hrest hdot room true
  | cons g gs =>
    cases room with
    | zero => contradiction
    | succ room =>
      have hstart : start? true (joined (g :: gs) ++ rest)
          = some (Nat.toDigits 16 g.toNat ++ (colons gs ++ rest)) := by
        simp [start?, joined]
      have hv4 : (start? true (joined (g :: gs) ++ rest)).bind readV4? = none :=
        bind_readV4?_eq_none true (by simp [dot_not_mem_joined, hdot])
      rw [readGroups_succ room hv4, hstart, Option.bind_some, group_read? g (hrest.stops gs)]
      simp [readGroups_colons (Nat.le_of_succ_le_succ hroom) hdot hrest]

end Address

namespace Ipv6

def IsZeroRun (gs : List UInt16) (run : Nat × Nat) : Prop :=
  ∃ front back, gs = front ++ (List.replicate run.2 0 ++ back) ∧ front.length = run.1

theorem isZeroRun_go {whole front gs : List UInt16} {best : Nat × Nat}
    (hwhole : whole = front ++ gs) (hbest : IsZeroRun whole best) :
    IsZeroRun whole (longestZeroRun.go front.length best gs) := by
  induction gs generalizing front best with
  | nil => exact hbest
  | cons g gs ih =>
    have hzeros : IsZeroRun whole (front.length, ((g :: gs).takeWhile (· == 0)).length) := by
      refine ⟨front, (g :: gs).dropWhile (· == 0), ?_, rfl⟩
      have htake : (g :: gs).takeWhile (· == 0)
          = List.replicate ((g :: gs).takeWhile (· == 0)).length 0 := by
        rw [List.eq_replicate_length]
        intro h hh
        simpa using List.mem_takeWhile_imp hh
      rw [← htake, List.takeWhile_append_dropWhile]
      exact hwhole
    have hnext {best : Nat × Nat} (hbest : IsZeroRun whole best) :
        IsZeroRun whole (longestZeroRun.go (front.length + 1) best gs) := by
      have hlength : front.length + 1 = (front ++ [g]).length := by simp
      rw [hlength]
      exact ih (by simp [hwhole]) hbest
    rw [longestZeroRun.go]
    apply hnext
    split
    . exact hzeros
    . exact hbest

theorem isZeroRun_longestZeroRun (gs : List UInt16) : IsZeroRun gs (longestZeroRun gs) :=
  isZeroRun_go (List.nil_append gs).symm ⟨[], gs, rfl, rfl⟩

end Ipv6

namespace Address

theorem readV6?_joined {gs : List UInt16} (h : gs.length = 8) :
    readV6? (joined gs) = (Ipv6.ofGroups? gs).map (·, []) := by
  have hread := readGroups_joined (Nat.le_of_eq h) List.not_mem_nil .nil
  rw [List.append_nil] at hread
  unfold readV6?
  rw [hread]
  simp [h, Option.map_eq_bind]

theorem readV6?_gap {front back : List UInt16} (h : front.length + back.length ≤ 7) :
    readV6? (joined front ++ ':' :: ':' :: joined back)
      =
    (Ipv6.ofGroups? (front ++ List.replicate (8 - front.length - back.length) 0 ++ back)).map
      (·, []) := by
  have hdot : '.' ∉ ':' :: ':' :: joined back := by
    simp [dot_not_mem_joined]
  have hfront : readGroups 8 true (joined front ++ ':' :: ':' :: joined back)
      = (front, false, ':' :: ':' :: joined back) :=
    readGroups_joined (by omega) hdot (.gap (joined back))
  have hback : readGroups (7 - front.length) true (joined back ++ []) = (back, false, []) :=
    readGroups_joined (by omega) List.not_mem_nil .nil
  rw [List.append_nil] at hback
  have hlength : (front.length == 8) = false := by
    rw [beq_eq_false_iff_ne]
    omega
  unfold readV6?
  rw [hfront]
  simp [hlength, skip?, hback, Option.map_eq_bind]

theorem readV4?_eq_none_of_head {c : Char} (hc : digit? 10 c = none) (cs : List Char) :
    readV4? (c :: cs) = none := by
  have hread : octet.read? (c :: cs) = none := read?_eq_none hc cs
  unfold readV4?
  rw [hread]
  rfl

/--
The groups that an IPv4 address stands for.
-/
def words (ip : Ipv4) : List UInt16 :=
  [ip.a.toUInt16 <<< 8 ||| ip.b.toUInt16, ip.c.toUInt16 <<< 8 ||| ip.d.toUInt16]

theorem readGroups_embedded (room : Nat) (ip : Ipv4) :
    readGroups (room + 2) false (':' :: ip.text.toList) = (words ip, true, []) := by
  rw [readGroups]
  simp [skip?, readV4?_text, words]

theorem readV6?_mapped (ip : Ipv4) :
    readV6? (':' :: ':' :: (Nat.toDigits 16 0xFFFF ++ ':' :: ip.text.toList))
      =
    (Ipv6.ofGroups? ([0, 0, 0, 0, 0, 0xFFFF] ++ words ip)).map (·, []) := by
  have hfront (cs : List Char) : readGroups 8 true (':' :: cs) = ([], false, ':' :: cs) := by
    have hv4 : readV4? (':' :: cs) = none := readV4?_eq_none_of_head (by decide) cs
    have hgroup : group.read? (':' :: cs) = none := read?_eq_none (by decide) cs
    rw [readGroups_first 7 hv4, hgroup]
  have hback : readGroups 7 true (Nat.toDigits 16 0xFFFF ++ ':' :: ip.text.toList)
      = (0xFFFF :: words ip, true, []) := by
    have hv4 : readV4? (Nat.toDigits 16 0xFFFF ++ ':' :: ip.text.toList) = none :=
      readV4?_eq_none_of_head (by decide) _
    have hstops : Stops 16 (':' :: ip.text.toList) := stops_cons (by decide) _
    have hgroup : group.read? (Nat.toDigits 16 0xFFFF ++ ':' :: ip.text.toList)
        = some (0xFFFF, ':' :: ip.text.toList) := group_read? 0xFFFF hstops
    rw [readGroups_first 6 hv4, hgroup]
    simp [readGroups_embedded 4 ip]
  unfold readV6?
  rw [hfront]
  simp [skip?, hback, words, Ipv6.ofGroups?]

theorem eq_of_mapped? {ip : Ipv6} {v4 : Ipv4} (h : ip.mapped? = some v4) :
    ip.groups = [0, 0, 0, 0, 0, 0xFFFF] ++ words v4 := by
  unfold Ipv6.mapped? at h
  split at h
  . next hprefix =>
    rw [Bool.and_eq_true, beq_iff_eq, beq_iff_eq] at hprefix
    cases h
    rw [← List.take_append_drop 5 ip.groups, hprefix.1]
    simp only [words, word_of_bytes, Ipv6.groups, List.drop, hprefix.2]
    rfl
  . contradiction

inductive Written (ip : Ipv6) : List Char → Prop
  | mapped (v4 : Ipv4) (h : ip.groups = [0, 0, 0, 0, 0, 0xFFFF] ++ words v4) :
    Written ip (':' :: ':' :: (Nat.toDigits 16 0xFFFF ++ ':' :: v4.text.toList))
  | gap (front back : List UInt16) (zeros : Nat) (hzeros : 1 < zeros)
    (h : ip.groups = front ++ (List.replicate zeros 0 ++ back)) :
    Written ip (joined front ++ ':' :: ':' :: joined back)
  | full : Written ip (joined ip.groups)

theorem written_text (ip : Ipv6) : Written ip ip.text.toList := by
  unfold Ipv6.text
  cases hmapped : ip.mapped? with
  | some v4 =>
    dsimp only
    rw [String.toList_append]
    exact .mapped v4 (eq_of_mapped? hmapped)
  | none =>
    dsimp only
    rcases Ipv6.isZeroRun_longestZeroRun ip.groups with ⟨front, back, hgroups, hstart⟩
    split
    . next hlong =>
      generalize Ipv6.longestZeroRun ip.groups = run at hgroups hstart hlong ⊢
      have hfront : ip.groups.take run.1 = front := by
        rw [← hstart, hgroups, List.take_left]
      have hback : ip.groups.drop (run.1 + run.2) = back := by
        rw [← hstart, hgroups, ← List.drop_drop, List.drop_left]
        simp
      rw [hfront, hback, String.toList_append, String.toList_append, toList_join, toList_join,
        List.append_assoc]
      exact .gap front back run.2 hlong hgroups
    . rw [toList_join]
      exact .full

theorem Written.readV6?_eq {ip : Ipv6} (h : Written ip cs) : readV6? cs = some (ip, []) := by
  cases h with
  | mapped v4 h =>
    rw [readV6?_mapped, ← h, Ipv6.ofGroups?_groups]
    rfl
  | gap front back zeros hzeros h =>
    have hlength : front.length + (zeros + back.length) = 8 := by
      have := congrArg List.length h
      simpa [Ipv6.groups] using this.symm
    have hfilled : 8 - front.length - back.length = zeros := by omega
    rw [readV6?_gap (by omega), hfilled, List.append_assoc, ← h, Ipv6.ofGroups?_groups]
    rfl
  | full =>
    rw [readV6?_joined rfl, Ipv6.ofGroups?_groups]
    rfl

theorem Written.readV4?_eq_none {ip : Ipv6} (h : Written ip cs) : readV4? cs = none := by
  cases h with
  | mapped v4 h => exact readV4?_eq_none_of_head (by decide) _
  | gap front back zeros hzeros h =>
    exact readV4?_eq_none_of_not_mem (by simp [dot_not_mem_joined])
  | full => exact readV4?_eq_none_of_not_mem (dot_not_mem_joined _)

/-!
What addresses are written with.
-/

def Appears (c : Char) : Prop := c = '.' ∨ c = ':' ∨ ∃ d < 16, Nat.digitChar d = c

theorem appears_toDigits {radix n : Nat} (hradix : 1 < radix) (hle : radix ≤ 16) :
    ∀ c ∈ Nat.toDigits radix n, Appears c := by
  intro c hc
  rcases mem_toDigits hradix hc with ⟨d, hd, hdc⟩
  exact .inr (.inr ⟨d, Nat.lt_of_lt_of_le hd hle, hdc⟩)

theorem appears_text_v4 (ip : Ipv4) : ∀ c ∈ ip.text.toList, Appears c := by
  have hdot : Appears '.' := .inl rfl
  have hdigits (n : Nat) : ∀ c ∈ Nat.toDigits 10 n, Appears c :=
    appears_toDigits (by decide) (by decide)
  rw [toList_text_v4]
  simp only [List.forall_mem_append, List.forall_mem_cons]
  exact ⟨hdigits _, hdot, hdigits _, hdot, hdigits _, hdot, hdigits _⟩

theorem appears_colons (gs : List UInt16) : ∀ c ∈ colons gs, Appears c := by
  intro c hc
  rcases List.mem_flatMap.mp hc with ⟨g, -, hc⟩
  rcases List.mem_cons.mp hc with rfl | hc
  . exact .inr (.inl rfl)
  . exact appears_toDigits (by decide) (by decide) c hc

theorem appears_joined (gs : List UInt16) : ∀ c ∈ joined gs, Appears c := by
  cases gs with
  | nil => exact fun c hc => by contradiction
  | cons g gs =>
    rw [joined, List.forall_mem_append]
    exact ⟨appears_toDigits (by decide) (by decide), appears_colons gs⟩

theorem Written.appears {ip : Ipv6} (h : Written ip cs) : ∀ c ∈ cs, Appears c := by
  have hcolon : Appears ':' := .inr (.inl rfl)
  cases h with
  | mapped v4 h =>
    simp only [List.forall_mem_append, List.forall_mem_cons]
    exact ⟨hcolon, hcolon, appears_toDigits (by decide) (by decide), hcolon, appears_text_v4 v4⟩
  | gap front back zeros hzeros h =>
    simp only [List.forall_mem_append, List.forall_mem_cons]
    exact ⟨appears_joined front, hcolon, hcolon, appears_joined back⟩
  | full => exact appears_joined _

end Address

namespace IpAddress

open Address

theorem parse?_text (ip : IpAddress) : parse? ip.text.toList = some ip := by
  unfold parse? Ipv4.parse? Ipv6.parse? whole?
  cases ip with
  | v4 ip => simp [text, readV4?_text]
  | v6 ip => simp [text, (written_text ip).readV4?_eq_none, (written_text ip).readV6?_eq]

theorem appears_text (ip : IpAddress) : ∀ c ∈ ip.text.toList, Appears c := by
  cases ip with
  | v4 ip => exact appears_text_v4 ip
  | v6 ip => exact (written_text ip).appears

end IpAddress

end Zeroconf
