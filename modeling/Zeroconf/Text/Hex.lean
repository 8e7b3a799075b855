/-!
This module contains bytes written as pairs of hexadecimal digits in lower case.
-/

namespace Zeroconf.Text.Hex

/--
The digits of a byte, the higher one first.
-/
def digits (b : UInt8) : List Char := [Nat.digitChar (b.toNat / 16), Nat.digitChar (b.toNat % 16)]

def encode (bytes : List UInt8) : List Char := bytes.flatMap digits

def value? (c : Char) : Option Nat :=
  if '0' ≤ c && c ≤ '9' then some (c.toNat - '0'.toNat)
  else if 'a' ≤ c && c ≤ 'f' then some (c.toNat - 'a'.toNat + 10)
  else none

def decode? : List Char → Option (List UInt8)
  | [] => some []
  | [_] => none
  | high :: low :: rest => do
    let byte := (← value? high) * 16 + (← value? low)
    return byte.toUInt8 :: (← decode? rest)

end Zeroconf.Text.Hex
