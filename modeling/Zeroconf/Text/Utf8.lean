/-!
This module contains the tolerant reading of bytes as UTF-8. Every maximal ill-formed piece of the
input is read as one replacement character, so that reading never fails.
-/

namespace Zeroconf.Text.Utf8

def replacement : Char := '\uFFFD'

/--
The least and the greatest second byte that may follow a lead byte, together with the number of
bytes that the lead byte announces. `none` if no sequence of several bytes starts with `lead`.
-/
def announced (lead : UInt8) : Option (Nat × UInt8 × UInt8) :=
  if 0xC2 ≤ lead && lead ≤ 0xDF then some (2, 0x80, 0xBF)
  else if lead == 0xE0 then some (3, 0xA0, 0xBF)
  else if lead == 0xED then some (3, 0x80, 0x9F)
  else if 0xE1 ≤ lead && lead ≤ 0xEF then some (3, 0x80, 0xBF)
  else if lead == 0xF0 then some (4, 0x90, 0xBF)
  else if 0xF1 ≤ lead && lead ≤ 0xF3 then some (4, 0x80, 0xBF)
  else if lead == 0xF4 then some (4, 0x80, 0x8F)
  else none

def isTail (b : UInt8) : Bool := 0x80 ≤ b && b ≤ 0xBF

/--
The character whose lead byte carries the bits `high` and whose further bytes are `tails`.
-/
def assemble (high : Nat) (tails : List UInt8) : Char :=
  Char.ofNat (tails.foldl (fun n b => n * 64 + (b.toNat - 0x80)) high)

/--
Read `bytes` as UTF-8. A lead byte together with the bytes that could have continued it is one
ill-formed piece; any other stray byte is a piece of its own.
-/
def decodeTolerant : List UInt8 → List Char
  | [] => []
  | lead :: rest =>
    if lead < 0x80 then
      Char.ofNat lead.toNat :: decodeTolerant rest
    else
      match announced lead with
      | none => replacement :: decodeTolerant rest
      | some (size, low, high) =>
        match rest with
        | [] => [replacement]
        | b₁ :: rest₁ =>
          if !(low ≤ b₁ && b₁ ≤ high) then
            replacement :: decodeTolerant (b₁ :: rest₁)
          else if size == 2 then
            assemble (lead.toNat - 0xC0) [b₁] :: decodeTolerant rest₁
          else
            match rest₁ with
            | [] => [replacement]
            | b₂ :: rest₂ =>
              if !isTail b₂ then
                replacement :: decodeTolerant (b₂ :: rest₂)
              else if size == 3 then
                assemble (lead.toNat - 0xE0) [b₁, b₂] :: decodeTolerant rest₂
              else
                match rest₂ with
                | [] => [replacement]
                | b₃ :: rest₃ =>
                  if !isTail b₃ then
                    replacement :: decodeTolerant (b₃ :: rest₃)
                  else
                    assemble (lead.toNat - 0xF0) [b₁, b₂, b₃] :: decodeTolerant rest₃
  termination_by bytes => bytes.length

end Zeroconf.Text.Utf8
