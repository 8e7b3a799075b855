import Zeroconf.Settings.Toml.Datetime
import Zeroconf.Settings.Value

/-!
This module contains the readers of TOML strings, numbers and truth values. A reader takes a text
and returns what it read together with the text behind it.
-/

namespace Zeroconf.Settings.Toml

def isBlank (c : Char) : Bool := c == ' ' || c == '\t'

def skipBlanks (cs : List Char) : List Char := cs.dropWhile isBlank

/--
Whether `c` may stand in a comment or, unescaped, in a string of one line.
-/
def isPrintable (c : Char) : Bool := c == '\t' || (0x20 ≤ c.toNat && c.toNat != 0x7F)

def newline? : List Char → Option (List Char)
  | '\n' :: cs => some cs
  | '\r' :: '\n' :: cs => some cs
  | _ => none

def charOfHex? (digits : List Char) : Option Char :=
  let isHex := fun (c : Char) => c.isDigit || ('a' ≤ c.toLower && c.toLower ≤ 'f')
  let digit := fun (c : Char) =>
    if c.isDigit then c.toNat - '0'.toNat else c.toLower.toNat - 'a'.toNat + 10
  let code := digits.foldl (fun n c => n * 16 + digit c) 0
  if digits.all isHex && Nat.isValidChar code then some (Char.ofNat code) else none

def readEscape : List Char → Option (Char × List Char)
  | 'b' :: cs => some ('\x08', cs)
  | 't' :: cs => some ('\t', cs)
  | 'n' :: cs => some ('\n', cs)
  | 'f' :: cs => some ('\x0c', cs)
  | 'r' :: cs => some ('\r', cs)
  | '"' :: cs => some ('"', cs)
  | '\\' :: cs => some ('\\', cs)
  | 'u' :: cs => ofDigits 4 cs
  | 'U' :: cs => ofDigits 8 cs
  | _ => none
where
  ofDigits (count : Nat) (cs : List Char) : Option (Char × List Char) :=
    if (cs.take count).length < count then none
    else (charOfHex? (cs.take count)).map fun c => (c, cs.drop count)

/--
Read a string of one line behind its opening quote. `fuel` bounds the number of its characters.
-/
def readBasic (fuel : Nat) (cs : List Char) : Option (List Char × List Char) :=
  match fuel, cs with
  | 0, _ | _, [] => none
  | _, '"' :: cs => some ([], cs)
  | fuel + 1, '\\' :: cs => do
    let (c, cs) ← readEscape cs
    let (text, cs) ← readBasic fuel cs
    return (c :: text, cs)
  | fuel + 1, c :: cs =>
    if isPrintable c then (readBasic fuel cs).map fun (text, cs) => (c :: text, cs) else none

def readLiteral (cs : List Char) : Option (List Char × List Char) :=
  match cs.dropWhile (· != '\'') with
  | [] => none
  | _ :: behind =>
    let text := cs.takeWhile (· != '\'')
    if text.all isPrintable then some (text, behind) else none

/--
Read the end of a string of several lines behind three quotes: up to two more quotes belong to the
string.
-/
def readQuotesBehind (quote : Char) (cs : List Char) : Option (List Char × List Char) :=
  let extra := min 2 (cs.takeWhile (· == quote)).length
  some (List.replicate extra quote, cs.drop extra)

def skipLineEnds : List Char → List Char
  | '\n' :: cs => skipLineEnds cs
  | '\r' :: '\n' :: cs => skipLineEnds cs
  | c :: cs => if isBlank c then skipLineEnds cs else c :: cs
  | [] => []

/--
The text behind blanks and ends of lines, if at least one line ends there.
-/
def skipLineEnds? (cs : List Char) : Option (List Char) :=
  (newline? (skipBlanks cs)).map skipLineEnds

def readMultiline (quote : Char) (fuel : Nat) (cs : List Char) : Option (List Char × List Char) :=
  match fuel with
  | 0 => none
  | fuel + 1 =>
    match cs with
    | [] => none
    | c :: behind =>
      if [quote, quote, quote].isPrefixOf cs then
        readQuotesBehind quote (cs.drop 3)
      else if c == '\\' && quote == '"' then
        match skipLineEnds? behind with
        | some cs => readMultiline quote fuel cs
        | none => do
          let (c, cs) ← readEscape behind
          let (text, cs) ← readMultiline quote fuel cs
          return (c :: text, cs)
      else
        match newline? cs with
        | some cs => (readMultiline quote fuel cs).map fun (text, cs) => ('\n' :: text, cs)
        | none =>
          if isPrintable c then
            (readMultiline quote fuel behind).map fun (text, cs) => (c :: text, cs)
          else
            none

def readString (fuel : Nat) (cs : List Char) : Option (List Char × List Char) :=
  match cs with
  | '"' :: '"' :: '"' :: cs => readMultiline '"' fuel ((newline? cs).getD cs)
  | '\'' :: '\'' :: '\'' :: cs => readMultiline '\'' fuel ((newline? cs).getD cs)
  | '"' :: cs => readBasic fuel cs
  | '\'' :: cs => readLiteral cs
  | _ => none

/--
Digits, which may be grouped by single underscores.
-/
def grouped? (isDigit : Char → Bool) (cs : List Char) : Option (List Char) :=
  let groups := Text.splitAll (· == '_') cs
  if groups.all fun g => !g.isEmpty && g.all isDigit then some groups.flatten else none

/--
Decimal digits without a superfluous zero in front.
-/
def decimal? (cs : List Char) : Option (List Char) :=
  (grouped? Char.isDigit cs).filter fun digits => digits.length == 1 || digits.head? != some '0'

def int64? (n : Int) : Option Value :=
  if Int64.minValue.toInt ≤ n && n ≤ Int64.maxValue.toInt then some (.int n) else none

def radix? (base : Nat) (cs : List Char) : Option Value := do
  let value := fun (c : Char) =>
    if c.isDigit then c.toNat - '0'.toNat
    else if 'a' ≤ c.toLower && c.toLower ≤ 'f' then c.toLower.toNat - 'a'.toNat + 10
    else 16
  let digits ← grouped? (fun c => value c < base) cs
  int64? (digits.foldl (fun n c => n * base + value c) 0 : Nat)

/--
The size of a floating-point number with these digits in front of the point; the text goes on behind
them.
-/
def fraction? (whole : List Char) (cs : List Char) : Option Float := do
  let isPart := fun (c : Char) => c.isDigit || c == '_'
  let (part, cs) ← match cs with
    | '.' :: cs => (grouped? Char.isDigit (cs.takeWhile isPart)).map (·, cs.dropWhile isPart)
    | cs => some ([], cs)
  let exponent ← match cs with
    | [] => some 0
    | e :: cs =>
      if e == 'e' || e == 'E' then
        match cs with
        | '-' :: cs => (grouped? Char.isDigit cs).map fun d => -(Text.Decimal.digitsValue d : Int)
        | '+' :: cs => (grouped? Char.isDigit cs).map fun d => (Text.Decimal.digitsValue d : Int)
        | cs => (grouped? Char.isDigit cs).map fun d => (Text.Decimal.digitsValue d : Int)
      else none
  return Text.Decimal.toFloat (Text.Decimal.digitsValue (whole ++ part)) (exponent - part.length)

/--
The number that a word spells behind its sign. Digits may be too many for any finite number, but
only if the number is negative.
-/
def number? (negative : Bool) (word : List Char) : Option Value :=
  let signed := fun (size : Float) => if negative then -size else size
  let infinity : Float := 1 / 0
  if word == "inf".toList then some (.float (signed infinity))
  else if word == "nan".toList then some (.float (signed (0 / 0)))
  else
    let isPart := fun (c : Char) => c.isDigit || c == '_'
    (decimal? (word.takeWhile isPart)).bind fun whole =>
      match word.dropWhile isPart with
      | [] =>
        let size : Int := Text.Decimal.digitsValue whole
        int64? (if negative then -size else size)
      | behind => (((fraction? whole behind).map signed).filter (· != infinity)).map .float

def word? (word : List Char) : Option Value :=
  match word with
  | '0' :: 'x' :: cs => radix? 16 cs
  | '0' :: 'o' :: cs => radix? 8 cs
  | '0' :: 'b' :: cs => radix? 2 cs
  | '+' :: cs => number? false cs
  | '-' :: cs => number? true cs
  | cs =>
    if cs == "true".toList then some (.bool true)
    else if cs == "false".toList then some (.bool false)
    else number? false cs

def readWord (cs : List Char) : Option (Value × List Char) :=
  let isPart := fun (c : Char) => c.isAlphanum || c == '_' || c == '+' || c == '-' || c == '.'
  (word? (cs.takeWhile isPart)).map (·, cs.dropWhile isPart)

end Zeroconf.Settings.Toml
