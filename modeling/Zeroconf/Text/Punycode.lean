/-!
This module contains Punycode, which writes a text with the letters, digits and hyphens of ASCII. In
front stand the ASCII characters of the text and, if there are any, a hyphen; behind them the other
characters are inserted one after the other, in the order of their codes. What has to be skipped up
to the next insertion is a number of variable length.
-/

namespace Zeroconf.Text.Punycode

def base : Nat := 36

def digitChar (digit : Nat) : Char :=
  if digit < 26 then Char.ofNat (digit + 'a'.toNat) else Char.ofNat (digit - 26 + '0'.toNat)

/--
The digit for which a character stands, in either case.
-/
def digitValue? (c : Char) : Option Nat :=
  if c.isDigit then some (c.toNat - '0'.toNat + 26)
  else if c.isAlpha then some (c.toLower.toNat - 'a'.toNat)
  else none

/--
A digit below the threshold of its place ends a number.
-/
def threshold (bias place : Nat) : Nat := max 1 (min 26 (place - bias))

theorem threshold_pos (bias place : Nat) : 1 ≤ threshold bias place := by
  unfold threshold
  omega

/--
The bias for numbers that are about as large as `delta`, on top of `start`.
-/
def biasFor (start delta : Nat) : Nat :=
  if delta > 455 then biasFor (start + base) (delta / 35) else start + 36 * delta / (delta + 38)
  termination_by delta
  decreasing_by omega

/--
The bias behind an insertion. `delta` was skipped before it, and there are now `count` characters.
-/
def adapt (delta count : Nat) (first : Bool) : Nat :=
  let delta := if first then delta / 700 else delta / 2
  biasFor 0 (delta + delta / count)

/--
The digits of a number, the lowest first, from a place on.
-/
def writeNumber (bias place n : Nat) : List Char :=
  let t := threshold bias place
  if n < t then
    [digitChar n]
  else
    digitChar (t + (n - t) % (base - t)) :: writeNumber bias (place + base) ((n - t) / (base - t))
  termination_by n
  decreasing_by
    have := threshold_pos bias place
    have := Nat.div_le_self (n - threshold bias place) (base - threshold bias place)
    omega

structure Writer where
  output : List Char
  /-- The characters that have been written. -/
  count : Nat
  bias : Nat := 72
  /-- What has been skipped since the last insertion. -/
  delta : Nat := 0

/--
Walk over a character of the text while those with the code `code` are inserted.
-/
def Writer.visit (ascii code : Nat) (writer : Writer) (c : Char) : Writer :=
  if c.toNat < code then
    { writer with delta := writer.delta + 1 }
  else if c.toNat == code then
    { output := writer.output ++ writeNumber writer.bias base writer.delta
      count := writer.count + 1
      bias := adapt writer.delta (writer.count + 1) (writer.count == ascii)
      delta := 0 }
  else
    writer

/--
Insert the characters with the given codes, which increase from `next` on.
-/
def Writer.insertAll (text : List Char) (ascii next : Nat) (writer : Writer) : List Nat → Writer
  | [] => writer
  | code :: codes =>
    let skipped := { writer with delta := writer.delta + (code - next) * (writer.count + 1) }
    let written := text.foldl (Writer.visit ascii code) skipped
    insertAll text ascii (code + 1) { written with delta := written.delta + 1 } codes

def isAscii (c : Char) : Bool := c.toNat < 0x80

def encode (text : List Char) : List Char :=
  let ascii := text.filter isAscii
  let codes := ((text.filter (!isAscii ·)).map Char.toNat).mergeSort.eraseDups
  let start := if ascii.isEmpty then [] else ascii ++ ['-']
  (Writer.insertAll text ascii.length 0x80 { output := start, count := ascii.length } codes).output

def numberBound : Nat := UInt32.size

/--
Read a number from a place on, where a digit counts `weight` times. The number is added to `n`.
-/
def readNumber (bias place weight n : Nat) : List Char → Option (Nat × List Char)
  | [] => none
  | c :: cs => do
    let digit ← digitValue? c
    let n := n + digit * weight
    let t := threshold bias place
    if n ≥ numberBound then none
    else if digit < t then some (n, cs)
    else if weight * (base - t) ≥ numberBound then none
    else readNumber bias (place + base) (weight * (base - t)) n cs

/--
Read insertions into `text`. The next character to insert has the code `code` and stands at
`position`, unless something is skipped. `fuel` bounds the number of insertions.
-/
def readInsertions (fuel bias code position : Nat) (text : List Char) :
    List Char → Option (List Char)
  | [] => some text
  | cs =>
    match fuel with
    | 0 => none
    | fuel + 1 => do
      let (total, behind) ← readNumber bias base 1 position cs
      let count := text.length + 1
      let code := code + total / count
      if Nat.isValidChar code then
        let place := total % count
        readInsertions fuel (adapt (total - position) count (position == 0)) code (place + 1)
          (text.insertIdx place (Char.ofNat code)) behind
      else
        none

/--
The text whose form in ASCII is given. A hyphen stands behind ASCII characters only.
-/
def decode? (cs : List Char) : Option (List Char) :=
  let behind := (cs.reverse.takeWhile (· != '-')).reverse
  let ascii := cs.take (cs.length - behind.length - 1)
  let hasHyphen := behind.length < cs.length
  if ascii.isEmpty && hasHyphen || !ascii.all isAscii then
    none
  else
    readInsertions cs.length 72 0x80 0 ascii behind

end Zeroconf.Text.Punycode
