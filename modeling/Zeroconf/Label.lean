import Zeroconf.Text.Ascii

/-!
This module contains the labels of domain names, their presentation text and its reader. In the
text a label is a sequence of items: a plain byte, a backslash with a byte that is no digit, or a
backslash with three decimal digits. A dot that is not escaped ends a label.
-/

namespace Zeroconf

/--
One label of a domain name: any bytes.
-/
abbrev Label := List UInt8

namespace Label

def maxLength : Nat := 63

def Fits (label : Label) : Prop := 0 < label.length ∧ label.length ≤ maxLength

instance (label : Label) : Decidable label.Fits := inferInstanceAs (Decidable (_ ∧ _))

def wire (label : Label) : List UInt8 := label.length.toUInt8 :: label

/--
Whether the label starts with an underscore, as service types and protocols do.
-/
def isMarker (label : Label) : Bool := label.head? == some (Ascii.byte '_')

/--
The label in lower case; two labels name the same node if these are equal.
-/
def fold (label : Label) : Label := label.map Ascii.lower

@[simp]
theorem fold_fold (label : Label) : label.fold.fold = label.fold := by
  simp [fold]

/--
The bytes that stand for themselves only behind a backslash.
-/
def isSpecial (b : UInt8) : Bool :=
  ['"', '(', ')', '.', ';', '\\', '@', '$'].any (Ascii.byte · == b)

def decimalDigit (n : Nat) : UInt8 := (0x30 + n % 10).toUInt8

def escapeByte (b : UInt8) : List UInt8 :=
  if b ≤ 0x20 || 0x7F ≤ b then
    let n := b.toNat
    [Ascii.byte '\\', decimalDigit (n / 100), decimalDigit (n / 10), decimalDigit n]
  else if isSpecial b then
    [Ascii.byte '\\', b]
  else
    [b]

def escape (label : Label) : List UInt8 := label.flatMap escapeByte

inductive Fault where
  /-- Three digits behind a backslash exceed 255. -/
  | escapeOutOfRange (digits : List UInt8)
  /-- A backslash is followed by nothing, or by one or two digits only. -/
  | danglingEscape
  /-- A dot ends a label without a byte. -/
  | emptyLabel
  | tooLong
  deriving DecidableEq, Repr

def Fault.message (text : String) : Fault → String
  | .escapeOutOfRange digits => s!"escape \\{Ascii.text digits} out of range in '{text}'"
  | .danglingEscape => s!"dangling escape in '{text}'"
  | .emptyLabel => s!"empty label in '{text}'"
  | .tooLong => s!"label longer than {maxLength} bytes in '{text}'"

inductive Item where
  /-- The end of a label. -/
  | dot
  /-- A byte of a label. -/
  | byte (value : UInt8)
  deriving DecidableEq, Repr

def readItem (b : UInt8) (rest : List UInt8) : Except Fault (Item × List UInt8) :=
  if b == Ascii.byte '.' then
    .ok (.dot, rest)
  else if b == Ascii.byte '\\' then
    match rest with
    | [] => .error .danglingEscape
    | x :: behind =>
      if !Ascii.isDigit x then
        .ok (.byte x, behind)
      else
        match behind with
        | y :: z :: behind =>
          if Ascii.isDigit y && Ascii.isDigit z then
            let value := Ascii.digit x * 100 + Ascii.digit y * 10 + Ascii.digit z
            if value > 0xFF then
              .error (.escapeOutOfRange [x, y, z])
            else
              .ok (.byte value.toUInt8, behind)
          else
            .error .danglingEscape
        | _ => .error .danglingEscape
  else
    .ok (.byte b, rest)

theorem length_le_of_readItem {b : UInt8} {rest behind : List UInt8} {item : Item}
    (h : readItem b rest = .ok (item, behind)) : behind.length ≤ rest.length := by
  unfold readItem at h
  grind

/--
Read the labels of a text. Its end, like a dot, ends the last label, but may follow a dot.
-/
def readLabels (text : List UInt8) : Except Fault (List Label) :=
  go [] text
where
  /-- `label` holds the bytes of the label at which the reader stands. -/
  go (label : Label) (text : List UInt8) : Except Fault (List Label) :=
    match text with
    | [] => .ok (if label.isEmpty then [] else [label])
    | b :: rest =>
      match h : readItem b rest with
      | .error fault => .error fault
      | .ok (.dot, behind) =>
        have := length_le_of_readItem h
        if label.isEmpty then
          .error .emptyLabel
        else
          (go [] behind).map (label :: ·)
      | .ok (.byte value, behind) =>
        have := length_le_of_readItem h
        if label.length ≥ maxLength then
          .error .tooLong
        else
          go (label ++ [value]) behind
  termination_by text.length
  decreasing_by
    all_goals
      simp only [List.length_cons]
      omega

/--
The labels of a presentation text. A lone dot is the root and has none.
-/
def parseAll (text : List UInt8) : Except Fault (List Label) :=
  if text == [Ascii.byte '.'] then .ok [] else readLabels text

end Label

end Zeroconf
