/-!
This module contains decimal numbers: the reader of digits, and the text of floating-point numbers.
That text has the fewest digits that tell the number from its neighbours, the closest to it of
several such, and never an exponent.
-/

namespace Zeroconf.Text.Decimal

/--
The value of decimal digits, continuing `start`.
-/
def digitsFrom (start : Nat) (digits : List Char) : Nat :=
  digits.foldl (fun n c => n * 10 + (c.toNat - '0'.toNat)) start

def digitsValue (digits : List Char) : Nat := digitsFrom 0 digits

/--
Read decimal digits, at least one, and nothing else.
-/
def nat? (cs : List Char) : Option Nat :=
  if cs.isEmpty || !cs.all Char.isDigit then none else some (digitsValue cs)

def int? : List Char → Option Int
  | '-' :: cs => (nat? cs).map fun n => -(n : Int)
  | '+' :: cs => (nat? cs).map Int.ofNat
  | cs => (nat? cs).map Int.ofNat

/--
The floating-point number next to `mantissa` · 10 ^ `exponent`.
-/
def toFloat (mantissa : Nat) (exponent : Int) : Float :=
  if mantissa == 0 then 0
  else if exponent > 400 then 1 / 0
  else if exponent < -((Nat.log2 mantissa : Int) + 400) then 0
  else if exponent < 0 then Float.ofScientific mantissa true exponent.natAbs
  else Float.ofScientific mantissa false exponent.natAbs

/--
Read a floating-point number without its sign: digits, a point and digits, and an exponent, where
digits may be missing on one side of the point; or one of the words for infinity and for nothing.
-/
def unsignedFloat? (cs : List Char) : Option Float :=
  let word := String.ofList (cs.map Char.toLower)
  if word == "inf" || word == "infinity" then some (1 / 0)
  else if word == "nan" then some (0 / 0)
  else
    let whole := cs.takeWhile Char.isDigit
    let behind := cs.dropWhile Char.isDigit
    let (part, behind) :=
      match behind with
      | '.' :: behind => (behind.takeWhile Char.isDigit, behind.dropWhile Char.isDigit)
      | behind => ([], behind)
    let exponent? : Option Int :=
      match behind with
      | [] => some 0
      | e :: behind => if e == 'e' || e == 'E' then int? behind else none
    if whole.isEmpty && part.isEmpty then
      none
    else
      exponent?.map fun exponent =>
        toFloat (digitsValue (whole ++ part)) (exponent - part.length)

def float? : List Char → Option Float
  | '-' :: cs => (unsignedFloat? cs).map (-·)
  | '+' :: cs => unsignedFloat? cs
  | cs => unsignedFloat? cs

/--
A positive finite number as `m` · 2 ^ `e`.
-/
def components (x : Float) : Nat × Int :=
  let bits := x.toBits.toNat
  let fraction := bits % Nat.pow 2 52
  let exponent : Nat := bits / Nat.pow 2 52 % Nat.pow 2 11
  if exponent == 0 then (fraction, -1074) else (fraction + Nat.pow 2 52, Int.ofNat exponent - 1075)

/--
A positive finite number as a fraction.
-/
def ratio (x : Float) : Nat × Nat :=
  let (m, e) := components x
  if e < 0 then (m, Nat.pow 2 e.natAbs) else (m * Nat.pow 2 e.natAbs, 1)

/--
The power of ten of the first digit of `num` / `den`.
-/
def leadingPower (num den : Nat) : Int :=
  let guess : Int := ((Nat.toDigits 10 num).length : Int) - (Nat.toDigits 10 den).length
  if num * Nat.pow 10 (-guess).toNat ≥ den * Nat.pow 10 guess.toNat then guess else guess - 1

/--
The digits, and the power of ten of the last one, of the decimal number with `count` digits that is
closest to `x` among those that stand for `x`, if there is one.
-/
def candidate? (x : Float) (count : Nat) : Option (Nat × Int) :=
  let (num, den) := ratio x
  let last : Int := leadingPower num den - count + 1
  let num := num * Nat.pow 10 (-last).toNat
  let den := den * Nat.pow 10 last.toNat
  let below := num / den
  let rest := num % den
  let stands := fun (mantissa : Nat) => (toFloat mantissa last).toBits == x.toBits
  let order := if 2 * rest ≤ den then [below, below + 1] else [below + 1, below]
  (order.find? stands).map fun mantissa => (mantissa, last)

/--
The shortest decimal number that stands for a positive finite number.
-/
def shortest (x : Float) : Nat × Int :=
  (((List.range 17).map (· + 1)).findSome? (candidate? x)).getD (0, 0)

def positional (mantissa : Nat) (exponent : Int) : List Char :=
  let digits := Nat.toDigits 10 mantissa
  if exponent ≥ 0 then
    digits ++ List.replicate exponent.toNat '0'
  else
    let places := exponent.natAbs
    let padded := List.replicate (places + 1 - digits.length) '0' ++ digits
    let whole := padded.take (padded.length - places)
    let part := (padded.drop (padded.length - places)).reverse.dropWhile (· == '0')
    if part.isEmpty then whole else whole ++ '.' :: part.reverse

def floatText (x : Float) : String :=
  if x.isNaN then "NaN"
  else
    let sign := if x.toBits >>> 63 == 1 then "-" else ""
    let size := x.abs
    if size.isInf then sign ++ "inf"
    else if size == 0 then sign ++ "0"
    else
      let (mantissa, exponent) := shortest size
      sign ++ String.ofList (positional mantissa exponent)

end Zeroconf.Text.Decimal
