/-!
This module contains the blank characters of Unicode text and the operations that are defined by
them: trimming a text and splitting it into fields.
-/

namespace Zeroconf.Text

/--
Whether `c` has the Unicode property `White_Space`.
-/
def isBlank (c : Char) : Bool :=
  let n := c.toNat
  (0x09 ≤ n && n ≤ 0x0D) || n == 0x20 || n == 0x85 || n == 0xA0 || n == 0x1680 ||
    (0x2000 ≤ n && n ≤ 0x200A) || n == 0x2028 || n == 0x2029 || n == 0x202F || n == 0x205F ||
    n == 0x3000

/--
Whether `c` is a control character (category `Cc`).
-/
def isControl (c : Char) : Bool :=
  let n := c.toNat
  n ≤ 0x1F || (0x7F ≤ n && n ≤ 0x9F)

def trim (cs : List Char) : List Char :=
  ((cs.dropWhile isBlank).reverse.dropWhile isBlank).reverse

/--
The longest blank-free pieces of `cs`, in order.
-/
def fields (cs : List Char) : List (List Char) :=
  go [] cs
where
  go (piece : List Char) : List Char → List (List Char)
    | [] => if piece.isEmpty then [] else [piece.reverse]
    | c :: cs =>
      if isBlank c then
        if piece.isEmpty then go [] cs else piece.reverse :: go [] cs
      else
        go (c :: piece) cs

/--
The pieces of `cs` between the characters that satisfy `p`. There is always at least one piece.
-/
def splitAll (p : Char → Bool) : List Char → List (List Char)
  | [] => [[]]
  | c :: cs =>
    if p c then
      [] :: splitAll p cs
    else
      match splitAll p cs with
      | [] => [[c]]
      | piece :: pieces => (c :: piece) :: pieces

def splitFirst? (p : Char → Bool) (cs : List Char) : Option (List Char × List Char) :=
  match cs.dropWhile (fun c => !p c) with
  | [] => none
  | _ :: after => some (cs.takeWhile (fun c => !p c), after)

/--
The lines of a text. A line ends with `\n` or `\r\n`; a last line without an end counts if it is
not empty.
-/
def lines (cs : List Char) : List (List Char) :=
  let pieces := splitAll (· == '\n') cs
  let ended := pieces.dropLast.map stripReturn
  match pieces.getLast? with
  | none | some [] => ended
  | some last => ended ++ [last]
where
  stripReturn (line : List Char) : List Char :=
    if line.getLast? == some '\r' then line.dropLast else line

/--
`c` in lower case if that is a letter of ASCII, as it also is for the sign of the kelvin.
-/
def lowerChar (c : Char) : Char := if c == '\u212A' then 'k' else c.toLower

def lower (cs : List Char) : List Char :=
  cs.map lowerChar

end Zeroconf.Text
