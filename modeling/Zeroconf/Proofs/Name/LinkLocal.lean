import Zeroconf.Proofs.Name.Reverse

/-!
This module contains the proof that names are resolved by multicast by their last labels alone, and
that the names of addresses are if these are valid on one link only.
-/

namespace Zeroconf.Name

/-! ### The last labels decide -/

theorem endsWith_iff {name : Name} {zone : List Label} :
    name.endsWith zone = true ↔ zone.map Label.fold <:+ name.labels.map Label.fold := by
  apply List.isSuffixOf_iff_suffix

theorem isLinkLocal_iff {name : Name} :
    name.isLinkLocal = true
      ↔
    ∃ zone ∈ linkLocalZones, ∃ front back,
      name.labels = front ++ back ∧ back.map Label.fold = zone.map Label.fold := by
  unfold isLinkLocal
  rw [List.any_eq_true]
  apply exists_congr
  intro zone
  rw [endsWith_iff]
  apply and_congr_right'
  constructor
  . rintro ⟨folded, hfolded⟩
    rcases List.map_eq_append_iff.mp hfolded.symm with ⟨front, back, hsplit, -, hback⟩
    exact ⟨front, back, hsplit, hback⟩
  . rintro ⟨front, back, hsplit, hback⟩
    rw [hsplit, List.map_append, hback]
    apply List.suffix_append

/-- The zones are those of these six domains. -/
example :
    ["local.", "254.169.in-addr.arpa.", "8.e.f.ip6.arpa.", "9.e.f.ip6.arpa.", "a.e.f.ip6.arpa.",
      "b.e.f.ip6.arpa."].map ofPlainText = linkLocalZones.map fun zone => .ok ⟨zone, true⟩ := by
  decide +kernel

theorem isLinkLocal_append {name : Name} (h : name.isLinkLocal = true) (front : List Label)
    (fullyQualified : Bool) : isLinkLocal ⟨front ++ name.labels, fullyQualified⟩ = true := by
  rcases isLinkLocal_iff.mp h with ⟨zone, hzone, before, back, hsplit, hback⟩
  rw [isLinkLocal_iff]
  refine ⟨zone, hzone, front ++ before, back, ?_, hback⟩
  rw [hsplit, List.append_assoc]

theorem isLinkLocal_eq_of_fold_eq {a b : Name}
    (h : a.labels.map Label.fold = b.labels.map Label.fold) : a.isLinkLocal = b.isLinkLocal := by
  unfold isLinkLocal endsWith
  rw [h]

theorem length_le_of_mem_linkLocalZones {zone : List Label} (h : zone ∈ linkLocalZones) :
    zone.length ≤ 5 := by
  revert zone
  decide

/--
Labels in front of five others make no difference, as no zone has more.
-/
theorem isLinkLocal_append_eq {back : List Label} (h : 5 ≤ back.length) (front : List Label)
    (fullyQualified : Bool) :
    isLinkLocal ⟨front ++ back, fullyQualified⟩ = isLinkLocal ⟨back, fullyQualified⟩ := by
  unfold isLinkLocal
  rw [Bool.eq_iff_iff, List.any_eq_true, List.any_eq_true]
  apply exists_congr
  intro zone
  apply and_congr_right
  intro hzone
  have hlength := length_le_of_mem_linkLocalZones hzone
  rw [endsWith_iff, endsWith_iff, List.map_append]
  constructor
  . intro hsuffix
    apply List.suffix_of_suffix_length_le hsuffix (List.suffix_append ..)
    simp only [List.length_map]
    omega
  . intro hsuffix
    exact hsuffix.trans (List.suffix_append ..)

/-! ### The names of addresses -/

def zoneLabel (family : String) : Label := family.toList.map Ascii.byte

theorem linkLocalZones_eq :
    linkLocalZones
      =
    [[zoneLabel "local"], [decimalLabel 254, decimalLabel 169] ++ arpa "in-addr"] ++
      [8, 9, 10, 11].map fun digit =>
        [nibbleLabel digit, nibbleLabel 14, nibbleLabel 15] ++ arpa "ip6" := by
  decide

theorem isLinkLocal_arpa (x y z : Label) (family : String) :
    isLinkLocal ⟨[x, y, z] ++ arpa family, true⟩ = true
      ↔
    (zoneLabel family).fold = (zoneLabel "in-addr").fold ∧
      y.fold = (decimalLabel 254).fold ∧ z.fold = (decimalLabel 169).fold ∨
    (zoneLabel family).fold = (zoneLabel "ip6").fold ∧
      (∃ digit ∈ [8, 9, 10, 11], x.fold = (nibbleLabel digit).fold) ∧
      y.fold = (nibbleLabel 14).fold ∧ z.fold = (nibbleLabel 15).fold := by
  have hlocal : (zoneLabel "local").fold ≠ (zoneLabel "arpa").fold := by decide
  have harpa (family : String) : arpa family = [zoneLabel family, zoneLabel "arpa"] := rfl
  unfold isLinkLocal
  rw [linkLocalZones_eq, harpa, harpa, harpa]
  simp only [endsWith, List.isSuffixOf, List.isPrefixOf, List.any_cons, List.any_nil, List.map_cons,
    List.map_nil, List.cons_append, List.nil_append, List.reverse_cons, List.reverse_nil,
    Bool.or_eq_true, Bool.and_eq_true, beq_iff_eq, hlocal]
  grind

theorem fold_decimalLabel_inj {a b : UInt8} :
    (decimalLabel a).fold = (decimalLabel b).fold ↔ a = b := by
  constructor
  . intro h
    have hread := octet?_decimalLabel a
    rw [h, octet?_decimalLabel] at hread
    exact (Option.some.inj hread).symm
  . rintro rfl
    rfl

theorem fold_nibbleLabel_inj {a b : UInt8} (ha : a.toNat < 16) (hb : b.toNat < 16) :
    (nibbleLabel a).fold = (nibbleLabel b).fold ↔ a = b := by
  constructor
  . intro h
    have hread := nibble?_nibbleLabel ha
    rw [h, nibble?_nibbleLabel hb] at hread
    exact (Option.some.inj hread).symm
  . rintro rfl
    rfl

theorem exists_fold_nibbleLabel_iff (b : UInt8) :
    (∃ digit ∈ [8, 9, 10, 11], (nibbleLabel (b >>> 4)).fold = (nibbleLabel digit).fold)
      ↔
    b.toNat / 64 = 2 := by
  have hhex : ∀ digit ∈ ([8, 9, 10, 11] : List UInt8), digit.toNat < 16 := by simp
  have hdigit : (∃ digit ∈ [8, 9, 10, 11], (nibbleLabel (b >>> 4)).fold = (nibbleLabel digit).fold)
      ↔
    b >>> 4 ∈ ([8, 9, 10, 11] : List UInt8) := by
    constructor
    . rintro ⟨digit, hmem, h⟩
      rw [(fold_nibbleLabel_inj (toNat_shiftRight_lt b) (hhex digit hmem)).mp h]
      exact hmem
    . intro hmem
      exact ⟨_, hmem, rfl⟩
  have hplace : (b >>> 4).toNat = b.toNat / 16 := by
    simp [Nat.shiftRight_eq_div_pow]
  rw [hdigit]
  simp only [List.mem_cons, List.not_mem_nil, or_false, ← UInt8.toNat_inj, hplace]
  change b.toNat / 16 = 8 ∨ b.toNat / 16 = 9 ∨ b.toNat / 16 = 10 ∨ b.toNat / 16 = 11 ↔ _
  omega

theorem isLinkLocal_ofAddress (ip : IpAddress) :
    (ofAddress ip).isLinkLocal = ip.isLinkLocal := by
  rw [Bool.eq_iff_iff]
  cases ip with
  | v4 ip =>
    have hsplit : ofAddress (.v4 ip) = ⟨[decimalLabel ip.d] ++ ([decimalLabel ip.c,
        decimalLabel ip.b, decimalLabel ip.a] ++ arpa "in-addr"), true⟩ := by
      rfl
    have hfamily : (zoneLabel "in-addr").fold ≠ (zoneLabel "ip6").fold := by decide
    rw [hsplit, isLinkLocal_append_eq (by simp [arpa]), isLinkLocal_arpa, fold_decimalLabel_inj,
      fold_decimalLabel_inj]
    simp [hfamily, and_comm, IpAddress.isLinkLocal, Ipv4.isLinkLocal]
  | v6 ip =>
    let high := (ip.g₀ >>> 8).toUInt8
    let low := ip.g₀.toUInt8
    let front := (ip.octets.drop 2).reverse.flatMap nibbleLabels ++ [nibbleLabel (low &&& 0xF)]
    have hsplit : ofAddress (.v6 ip) = ⟨front ++ ([nibbleLabel (low >>> 4),
        nibbleLabel (high &&& 0xF), nibbleLabel (high >>> 4)] ++ arpa "ip6"), true⟩ := by
      rfl
    -- The last of the three digits of fe8 to feb leaves two bits open.
    have hhigh : ((nibbleLabel (high &&& 0xF)).fold = (nibbleLabel 14).fold ∧
        (nibbleLabel (high >>> 4)).fold = (nibbleLabel 15).fold) ↔ high = 0xFE := by
      rw [fold_nibbleLabel_inj (toNat_and_lt high) (by decide),
        fold_nibbleLabel_inj (toNat_shiftRight_lt high) (by decide)]
      constructor
      . rintro ⟨hlast, hfirst⟩
        rw [← byte_of_nibbles high, hlast, hfirst]
        rfl
      . intro h
        rw [h]
        decide
    have hfamily : (zoneLabel "ip6").fold ≠ (zoneLabel "in-addr").fold := by decide
    rw [hsplit, isLinkLocal_append_eq (by simp [arpa]), isLinkLocal_arpa,
      exists_fold_nibbleLabel_iff low, hhigh]
    rw [IpAddress.isLinkLocal, ip.isLinkLocal_iff]
    simp [hfamily, and_comm, high, low]

/--
Every address has a name, from which it can be read back, so that different addresses have
different names; and the name is resolved by multicast exactly if the address is valid on one link
only. Whether a name is resolved by multicast is decided by its last labels, whatever their case and
whatever stands in front of them.
-/
theorem reverse_routed :
    (∀ ip, reverse ip = .ok (ofAddress ip)) ∧
    (∀ ip, address? (ofAddress ip) = some ip) ∧
    (∀ a b, (ofAddress a).same (ofAddress b) = true ↔ a = b) ∧
    (∀ ip, (ofAddress ip).isLinkLocal = ip.isLinkLocal) ∧
    (∀ name : Name, name.isLinkLocal = true
      ↔
    ∃ zone ∈ linkLocalZones, ∃ front back,
      name.labels = front ++ back ∧ back.map Label.fold = zone.map Label.fold) ∧
    (∀ (name : Name) (front : List Label) (fullyQualified : Bool), name.isLinkLocal = true →
      isLinkLocal ⟨front ++ name.labels, fullyQualified⟩ = true) ∧
    ∀ a b : Name, a.labels.map Label.fold = b.labels.map Label.fold →
      a.isLinkLocal = b.isLinkLocal :=
  ⟨reverse_eq, address?_ofAddress, fun _ _ => same_ofAddress_iff, isLinkLocal_ofAddress,
    fun _ => isLinkLocal_iff, fun _ front isFull h => isLinkLocal_append h front isFull,
    fun _ _ => isLinkLocal_eq_of_fold_eq⟩

/--
The name of fe80::1, in upper case and with a label in front of it.
-/
theorem reverse_routed_upper :
    let ip : IpAddress := .v6 ⟨0xFE80, 0, 0, 0, 0, 0, 0, 1⟩
    let upper : Name := ⟨(ofAddress ip).labels.map fun label => label.map fun b =>
      if 0x61 ≤ b && b ≤ 0x7A then b - 0x20 else b, true⟩
    ip.isLinkLocal = true ∧ upper ≠ ofAddress ip ∧ upper.isLinkLocal = true ∧
    isLinkLocal ⟨[Ascii.byte 'x'] :: upper.labels, true⟩ = true := by
  intro ip upper
  rcases reverse_routed with ⟨-, -, -, haddress, -, hfront, hcase⟩
  have hip : ip.isLinkLocal = true := by decide
  have hfold : upper.labels.map Label.fold = (ofAddress ip).labels.map Label.fold := by
    decide
  have hupper : upper.isLinkLocal = true := by rw [hcase _ _ hfold, haddress, hip]
  exact ⟨hip, by decide, hupper, hfront upper [[Ascii.byte 'x']] true hupper⟩

end Zeroconf.Name
