import Zeroconf.Name
import Zeroconf.Name.Idna

/-!
This module contains the reader of the host names and service types that a user types in. It
differs from the reader of presentation text: three digits behind a backslash are octal, only the
characters of host names may stand in a label, and the labels are read as those of an
internationalized name, which are folded to lower case. If that is not possible for all of them,
they are read as they stand.
-/

namespace Zeroconf.Name

inductive HostFault where
  /-- A blank or control character, or something that is not numeric inside an octal escape. -/
  | unexpected (c : Char)
  /-- A numeric character that is no octal digit. -/
  | notOctal (c : Char)
  | malformed (label : List Char)
  | labelTooLong (length : Nat)
  /-- The labels do not make up a name. -/
  | name (fault : Fault)
  deriving DecidableEq, Repr

def HostFault.message : HostFault → String
  | .unexpected c => "unrecognized char: " ++ c.toString
  | .notOctal c => "illegal char: " ++ c.toString
  | .malformed label => "Malformed label: " ++ String.ofList label
  | .labelTooLong length => s!"label bytes exceed 63: {length}"
  | .name fault => fault.message

namespace HostText

/--
Where the reader stands: between items, behind a backslash, or behind some octal digits.
-/
inductive State where
  | plain
  | escaped
  | octal₁ (high : Nat)
  | octal₂ (high middle : Nat)
  deriving DecidableEq, Repr

def octalDigit (c : Char) : Except HostFault Nat :=
  if c < '8' then .ok (c.toNat - '0'.toNat) else .error (.notOctal c)

/--
Whether a label may contain `c` at all, and at its start.
-/
def isLabelChar (first : Bool) (c : Char) : Bool :=
  c.isAlphanum || c == '_' || c == '.' || (c == '-' && !first) || (c == '*' && first)

def utf8Length (label : List Char) : Nat := (String.ofList label).utf8ByteSize

def plainLabel (label : List Char) : Except HostFault (List Char) :=
  if utf8Length label > Label.maxLength then
    .error (.labelTooLong (utf8Length label))
  else
    match label with
    | c :: cs =>
      if isLabelChar true c && cs.all (isLabelChar false) then .ok label
      else .error (.malformed label)
    | [] => .error (.malformed label)

/--
A label of an internationalized name. Markers and a lone wildcard are taken as they stand.
-/
def foldedLabel (label : List Char) : Except HostFault (List Char) :=
  if label == ['*'] || label.head? == some '_' then
    plainLabel label
  else
    match Idna.toAscii? label with
    | some ascii => plainLabel ascii
    | none => .error (.malformed label)

def toLabel (label : List Char) : Label := Ascii.bytes (String.ofList label)

/--
`labels` with one more label, which `accept` finishes.
-/
def push (accept : List Char → Except HostFault (List Char)) (labels : List Label)
    (label : List Char) : Except HostFault (List Label) := do
  (extend labels (toLabel (← accept label))).mapError .name

/--
Read the labels of a text character by character, where `accept` finishes a label. An escape that
the end of the text leaves open is dropped.
-/
def readLabels (accept : List Char → Except HostFault (List Char)) (labels : List Label)
    (label : List Char) (state : State) : List Char → Except HostFault (List Label)
  | [] => if label.isEmpty then .ok labels else push accept labels label
  | c :: cs =>
    match state with
    | .plain =>
      if c == '.' then do readLabels accept (← push accept labels label) [] .plain cs
      else if c == '\\' then readLabels accept labels label .escaped cs
      else if Text.isBlank c || Text.isControl c then .error (.unexpected c)
      else readLabels accept labels (label ++ [c]) .plain cs
    | .escaped =>
      if Text.isNumeric c then do readLabels accept labels label (.octal₁ (← octalDigit c)) cs
      else readLabels accept labels (label ++ [c]) .plain cs
    | .octal₁ high =>
      if Text.isNumeric c then do readLabels accept labels label (.octal₂ high (← octalDigit c)) cs
      else .error (.unexpected c)
    | .octal₂ high middle =>
      if Text.isNumeric c then do
        let low ← octalDigit c
        readLabels accept labels (label ++ [Char.ofNat (high * 64 + middle * 8 + low)]) .plain cs
      else .error (.unexpected c)

end HostText

/--
The fully qualified name that a user means by `text`, with or without a dot at its end.
-/
def ofHostText (text : String) : Except HostFault Name :=
  if text == "." then
    .ok root
  else
    let read := fun (accept : List Char → Except HostFault (List Char)) =>
      (HostText.readLabels accept [] [] .plain text.toList).map fun labels =>
        (⟨labels, true⟩ : Name)
    match read HostText.foldedLabel with
    | .ok name => .ok name
    | .error _ => read HostText.plainLabel

/--
The fully qualified name that a text with a dot at its end spells as it stands.
-/
def ofPlainText (text : String) : Except HostFault Name :=
  if text == "." then
    .ok root
  else
    (HostText.readLabels HostText.plainLabel [] [] .plain text.toList).map fun labels =>
      ⟨labels, true⟩

end Zeroconf.Name
