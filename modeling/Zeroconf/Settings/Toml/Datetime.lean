import Zeroconf.Text.Decimal

/-!
This module contains the readers of TOML dates and times. A reader takes a text and returns what it
read, in its standard form, together with the text behind it.
-/

namespace Zeroconf.Settings.Toml

def readDigits (count least most : Nat) (cs : List Char) : Option (Nat × List Char) :=
  let digits := cs.take count
  let value := Text.Decimal.digitsValue digits
  if digits.length == count && digits.all Char.isDigit && least ≤ value && value ≤ most then
    some (value, cs.drop count)
  else
    none

def expect (c : Char) : List Char → Option (List Char)
  | x :: cs => if x == c then some cs else none
  | [] => none

def daysIn (year month : Nat) : Nat :=
  let leap := year % 4 == 0 && (year % 100 != 0 || year % 400 == 0)
  match month with
  | 2 => if leap then 29 else 28
  | 4 | 6 | 9 | 11 => 30
  | _ => 31

def padded (width n : Nat) : String :=
  let digits := Nat.toDigits 10 n
  String.ofList (List.replicate (width - digits.length) '0' ++ digits)

def readDate (cs : List Char) : Option (String × List Char) := do
  let (year, cs) ← readDigits 4 0 9999 cs
  let (month, cs) ← readDigits 2 1 12 (← expect '-' cs)
  let (day, cs) ← readDigits 2 1 (daysIn year month) (← expect '-' cs)
  return (s!"{padded 4 year}-{padded 2 month}-{padded 2 day}", cs)

/--
Read a time of the day up to an hour of it.
-/
def readTime (lastHour : Nat) (cs : List Char) : Option (String × List Char) := do
  let (hour, cs) ← readDigits 2 0 lastHour cs
  let (minute, cs) ← readDigits 2 0 59 (← expect ':' cs)
  let (second, cs) ← readDigits 2 0 60 (← expect ':' cs)
  let text := s!"{padded 2 hour}:{padded 2 minute}:{padded 2 second}"
  match cs with
  | '.' :: behind =>
    let digits := behind.takeWhile Char.isDigit
    let kept := ((digits.take 9).reverse.dropWhile (· == '0')).reverse
    if digits.isEmpty then none
    else
      let fraction := if kept.isEmpty then "" else "." ++ String.ofList kept
      return (text ++ fraction, behind.dropWhile Char.isDigit)
  | cs => return (text, cs)

/-- The distance of a time from universal time, in minutes, is no greater than this. -/
def greatestOffset : Nat := 24 * 60

def readOffset (lastHour lastMinute : Nat) (cs : List Char) : Option (String × List Char) :=
  match cs with
  | 'Z' :: cs | 'z' :: cs => some ("Z", cs)
  | sign :: behind =>
    if sign == '+' || sign == '-' then do
      let (hour, cs) ← readDigits 2 0 lastHour behind
      let (minute, cs) ← readDigits 2 0 lastMinute (← expect ':' cs)
      let total := hour * 60 + minute
      let sign := if total == 0 then "+" else sign.toString
      if total > greatestOffset then none
      else return (s!"{sign}{padded 2 (total / 60)}:{padded 2 (total % 60)}", cs)
    else
      some ("", cs)
  | [] => some ("", [])

def readDatetime (cs : List Char) : Option (String × List Char) :=
  match readDate cs with
  | none => readTime 23 cs
  | some (date, cs) =>
    match cs with
    | c :: behind =>
      if c == 'T' || c == 't' || (c == ' ' && (readTime 23 behind).isSome) then do
        let (time, cs) ← readTime 23 behind
        let (offset, cs) ← readOffset 23 59 cs
        return (s!"{date}T{time}{offset}", cs)
      else
        some (date, cs)
    | [] => some (date, [])

/--
The date, time or both that the text of a string spells. A day may end at its hour 24 here, and the
minutes of a distance from universal time may be more than an hour.
-/
def datetimeOfText? (cs : List Char) : Option String := do
  let (text, behind) ←
    match readDate cs with
    | none => readTime 24 cs
    | some (date, c :: cs) =>
      if c == 'T' || c == 't' || c == ' ' then do
        let (time, cs) ← readTime 24 cs
        let (offset, cs) ← readOffset 99 99 cs
        some (s!"{date}T{time}{offset}", cs)
      else
        none
    | some (date, []) => some (date, [])
  if behind.isEmpty then some text else none

end Zeroconf.Settings.Toml
