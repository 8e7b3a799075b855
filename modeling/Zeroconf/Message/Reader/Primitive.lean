import Zeroconf.Message

/-!
This module contains the parts from which the reader of messages is built: numbers, strings and
names. Names may end in a pointer to an earlier name; as a pointer must lead in front of the name in
which it stands, reading a name terminates.
-/

namespace Zeroconf.Message

inductive Fault where
  | truncated
  | badPointer
  /-- The labels behind a pointer run into the name that holds the pointer. -/
  | overlap
  | badLabel
  | nameTooLong
  | dataTooLong
  /-- The data of a record ends before or behind its stated end. -/
  | dataLength
  /-- The data of a record break the rules of its type. -/
  | malformedData
  | unknownType
  | misplacedExtension
  | secondExtension
  deriving DecidableEq, Repr

def Fault.message : Fault → String
  | .truncated => "unexpected end of input reached"
  | .badPointer => "label points to data not prior to idx"
  | .overlap => "overlapping labels"
  | .badLabel => "unrecognized label code"
  | .nameTooLong => "name label data exceed 255"
  | .dataTooLong => "rdata length too large for remaining bytes"
  | .dataLength => "incorrect rdata length read"
  | .malformedData => "malformed rdata"
  | .unknownType => "record type code unknown"
  | .misplacedExtension => "edns resource record is misplaced"
  | .secondExtension => "more than one edns record present"

/--
Readers walk over the bytes of a whole message; their state is the position of the next byte.
-/
abbrev Reader (α : Type) := Array UInt8 → Nat → Except Fault (α × Nat)

instance : Monad Reader where
  pure a := fun _ position => .ok (a, position)
  bind read next := fun bytes position =>
    match read bytes position with
    | .error fault => .error fault
    | .ok (a, position) => next a bytes position

namespace Reader

def fail {α : Type} (fault : Fault) : Reader α := fun _ _ => .error fault

def position : Reader Nat := fun _ position => .ok (position, position)

def remaining : Reader Nat := fun bytes position => .ok (bytes.size - position, position)

def byte : Reader UInt8 := fun bytes position =>
  match bytes[position]? with
  | some b => .ok (b, position + 1)
  | none => .error .truncated

def word : Reader UInt16 := do
  let high ← byte
  let low ← byte
  return high.toUInt16 <<< 8 ||| low.toUInt16

def longWord : Reader UInt32 := do
  let high ← word
  let low ← word
  return high.toUInt32 <<< 16 ||| low.toUInt32

def take (count : Nat) : Reader (List UInt8) := fun bytes position =>
  if position + count ≤ bytes.size then
    .ok ((bytes.extract position (position + count)).toList, position + count)
  else
    .error .truncated

def repeated {α : Type} (count : Nat) (read : Reader α) : Reader (List α) :=
  match count with
  | 0 => pure []
  | count + 1 => do
    let a ← read
    return a :: (← repeated count read)

/--
What the labels of a name amount to with a dot behind each of them.
-/
def textLength (labels : List Label) : Nat :=
  max 1 (labels.length + labels.flatten.length)

/--
Read the labels of a name that starts at `start`. They are appended to `labels`; behind a pointer,
they must end in front of `limit`.
-/
def labels (bytes : Array UInt8) (start : Nat) (limit : Option Nat) (position : Nat)
    (labels : List Label) : Except Fault (List Label × Nat) :=
  if limit.any (· ≤ position) then
    .error .overlap
  else if textLength labels ≥ Name.maxWireLength then
    .error .nameTooLong
  else if h : position < bytes.size then
    let b := bytes[position]
    if b == 0 then
      .ok (labels, position + 1)
    else if b &&& 0xC0 == 0xC0 then
      match bytes[position + 1]? with
      | none => .error .truncated
      | some low =>
        let target := (b &&& 0x3F).toNat * 256 + low.toNat
        if target < start then
          (Reader.labels bytes target (some start) target labels).map fun (labels, _) =>
            (labels, position + 2)
        else
          .error .badPointer
    else if b &&& 0xC0 == 0 then
      let stop := position + 1 + b.toNat
      if stop ≤ bytes.size then
        let label := (bytes.extract (position + 1) stop).toList
        Reader.labels bytes start limit stop (labels ++ [label])
      else
        .error .truncated
    else
      .error .badLabel
  else
    .error .truncated
termination_by (start, bytes.size - position)

def name : Reader Name := fun bytes position =>
  (labels bytes position none position []).map fun (labels, position) =>
    (⟨labels, true⟩, position)

/--
Strings with a length byte each, up to the position `stop`.
-/
def strings (stop : Nat) (bytes : Array UInt8) (position : Nat) :
    Except Fault (List (List UInt8) × Nat) :=
  if position < stop then
    match bytes[position]? with
    | none => .error .truncated
    | some length =>
      match take length.toNat bytes (position + 1) with
      | .error fault => .error fault
      | .ok (string, _) =>
        (strings stop bytes (position + 1 + length.toNat)).map fun (strings, position) =>
          (string :: strings, position)
  else
    .ok ([], position)
termination_by stop - position

end Reader

end Zeroconf.Message
