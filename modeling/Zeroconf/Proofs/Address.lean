import Mathlib.Data.Nat.Bitwise
import Zeroconf.Address

/-!
This module contains the bytes of IP addresses: an address is made of its bytes again, and the first
two of them tell whether it is valid on one link only.
-/

namespace Zeroconf

theorem word_of_bytes (n : UInt16) :
    (n >>> 8).toUInt8.toUInt16 <<< 8 ||| n.toUInt8.toUInt16 = n := by
  have hlow : n.toUInt8.toUInt16.toNat = n.toNat % 0x100 := by simp
  -- The upper byte alone, moved to where it was; the two do not overlap.
  have hhigh : ((n >>> 8).toUInt8.toUInt16 <<< 8).toNat = (n.toNat / 0x100) <<< 8 := by
    have := n.toNat_lt
    simp [Nat.shiftRight_eq_div_pow, Nat.shiftLeft_eq]
    omega
  apply UInt16.toNat_inj.mp
  rw [UInt16.toNat_or, hlow, hhigh, ← Nat.shiftLeft_add_eq_or_of_lt (by omega), Nat.shiftLeft_eq]
  omega

theorem Ipv6.ofOctets?_octets (ip : Ipv6) : ofOctets? ip.octets = some ip := by
  unfold octets
  generalize hgroups : ip.groups = groups
  have hpairs : ofOctets?.pairs (groups.flatMap fun (g : UInt16) => [(g >>> 8).toUInt8, g.toUInt8])
      =
    some groups := by
    clear hgroups
    induction groups with
    | nil => rfl
    | cons g groups ih =>
      rw [List.flatMap_cons, List.cons_append, List.cons_append, List.nil_append, ofOctets?.pairs,
        ih, word_of_bytes]
      rfl
  rw [ofOctets?, hpairs, ← hgroups]
  rfl

theorem and_eq_div_mul {n : Nat} (h : n < 2 ^ 16) : n &&& 0xFFC0 = n / 2 ^ 6 * 2 ^ 6 := by
  have hmask : 0xFFC0 = (2 ^ 10 - 1) <<< 6 := by rfl
  apply Nat.eq_of_testBit_eq
  intro i
  rw [hmask, Nat.testBit_and, Nat.testBit_shiftLeft, Nat.testBit_two_pow_sub_one,
    ← Nat.shiftRight_eq_div_pow, ← Nat.shiftLeft_eq, Nat.testBit_shiftLeft, Nat.testBit_shiftRight]
  by_cases hlow : 6 ≤ i
  . have hplace : 6 + (i - 6) = i := by omega
    by_cases hhigh : i < 16
    . have hwidth : i - 6 < 10 := by omega
      simp [hlow, hplace, hwidth]
    . have hzero : n.testBit i = false := by
        apply Nat.testBit_lt_two_pow
        exact Nat.lt_of_lt_of_le h (Nat.pow_le_pow_right (by decide) (by omega))
      simp [hlow, hplace, hzero]
  . simp [hlow]

theorem Ipv6.isLinkLocal_iff (ip : Ipv6) :
    ip.isLinkLocal = true
      ↔
    (ip.g₀ >>> 8).toUInt8 = 0xFE ∧ ip.g₀.toUInt8.toNat / 64 = 2 := by
  have hlt := ip.g₀.toNat_lt
  have hmask := and_eq_div_mul hlt
  rw [isLinkLocal, beq_iff_eq, ← UInt16.toNat_inj, UInt16.toNat_and, ← UInt8.toNat_inj]
  simp [hmask, Nat.shiftRight_eq_div_pow]
  omega

end Zeroconf
