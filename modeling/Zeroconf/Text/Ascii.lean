/-!
This module contains the bridge between bytes and text for the parts of the library that work on
bytes: ASCII case, digits, and the text that ASCII bytes spell.
-/

namespace Zeroconf.Ascii

def byte (c : Char) : UInt8 := c.toNat.toUInt8

def lower (b : UInt8) : UInt8 :=
  if 0x41 ≤ b && b ≤ 0x5A then b + 0x20 else b

def isDigit (b : UInt8) : Bool := 0x30 ≤ b && b ≤ 0x39

def digit (b : UInt8) : Nat := b.toNat - 0x30

def text (bytes : List UInt8) : String :=
  String.ofList (bytes.map fun b => Char.ofNat b.toNat)

def bytes (text : String) : List UInt8 := text.toUTF8.toList

@[simp]
theorem lower_lower (b : UInt8) : lower (lower b) = lower b := by
  unfold lower
  by_cases h : (0x41 ≤ b && b ≤ 0x5A) = true
  · have hb : 65 ≤ b.toNat ∧ b.toNat ≤ 90 := by
      simpa [UInt8.le_iff_toNat_le] using h
    have hn : ¬ (0x41 ≤ b + 0x20 && b + 0x20 ≤ 0x5A) = true := by
      simp [UInt8.le_iff_toNat_le, UInt8.toNat_add]
      omega
    rw [if_pos h, if_neg hn]
  · rw [if_neg h, if_neg h]

end Zeroconf.Ascii
