import Zeroconf.Message.Reader.Primitive

/-!
This module contains the readers of record data in which the library looks for names only. What they
return says the same as the data, without pointers to names elsewhere and without what has no
meaning.
-/

namespace Zeroconf.Message.Reader

def countedString : Reader (List UInt8) := do
  let length ← byte
  return length :: (← take length.toNat)

def isAlphanumeric (b : UInt8) : Bool :=
  Ascii.isDigit b || (0x61 ≤ Ascii.lower b && Ascii.lower b ≤ 0x7A)

/--
`length` bytes of any content, of which there must be at least `least`.
-/
def atLeast (least length : Nat) : Reader (List UInt8) :=
  if length < least then fail .malformedData else take length

def startOfAuthority : Reader Payload := do
  return ⟨[([], ← name), ([], ← name)], ← take 20⟩

def mailExchange : Reader Payload := do
  return ⟨[(← take 2, ← name)], []⟩

def hostInfo : Reader (List UInt8) := do
  return (← countedString) ++ (← countedString)

/--
A rule by which names are made from others.
-/
def namingAuthority : Reader Payload := do
  let order ← take 4
  let flags ← countedString
  if !flags.tail.all isAlphanumeric then
    fail .malformedData
  let rule := order ++ flags ++ (← countedString) ++ (← countedString)
  return ⟨[(rule, ← name)], []⟩

/--
A property of certificates: flags, a tag of 1 to 15 letters and digits, and a value.
-/
def certificateAuthority (length : Nat) : Reader (List UInt8) := do
  let flags ← byte
  let size ← byte
  if size == 0 || size > 15 || size.toNat + 2 > length then
    fail .malformedData
  let tag ← take size.toNat
  if !tag.all isAlphanumeric then
    fail .malformedData
  return flags :: size :: tag ++ (← take (length - size.toNat - 2))

/--
Whether `bytes` is a set of record types: windows, each a number, a length and so many bytes with a
bit for each type. The end of the bytes may cut off a window. A window has 256 types, so behind 32
bytes no bit is set.
-/
def isTypeSet (bytes : List UInt8) : Bool :=
  match bytes with
  | _ :: length :: b :: bytes =>
    let window := (b :: bytes).take length.toNat
    length != 0 && (window.drop 32).all (· == 0) && isTypeSet ((b :: bytes).drop length.toNat)
  | _ => true
  termination_by bytes.length
  decreasing_by
    simp only [List.length_drop, List.length_cons]
    omega

/--
The types that a child zone wants its parent to copy. Only two of the flags have a meaning, and the
others of the lower byte must not be set.
-/
def childSynchronization (length : Nat) : Reader (List UInt8) := do
  let serial ← take 4
  let flags ← word
  if flags &&& 0xFC != 0 then
    fail .malformedData
  let types ← take (length - 6)
  if !isTypeSet types then
    fail .malformedData
  return serial ++ [0, (flags &&& 3).toUInt8] ++ types

def isText (bytes : List UInt8) : Bool := (String.fromUTF8? ⟨bytes.toArray⟩).isSome

def parameterValue (key : Nat) (value : List UInt8) : Option (List UInt8) :=
  match key with
  -- keys that must be understood
  | 0 => if value.isEmpty || value.length % 2 != 0 then none else some value
  -- protocols
  | 1 =>
    match strings value.length value.toArray 0 with
    | .ok (protocols, _) =>
      if protocols.isEmpty || !protocols.all isText then none else some value
    | .error _ => none
  -- no default protocol
  | 2 => if value.isEmpty then some [] else none
  -- port
  | 3 => if value.length < 2 then none else some (value.take 2)
  -- addresses
  | 4 => if value.length % 4 == 0 then some value else none
  | 6 => if value.length % 16 == 0 then some value else none
  | _ => some value

/--
Service parameters, each with a key, a length and a value. The keys are greater than `last` and
increase.
-/
def parameters? (last : Option Nat) (bytes : List UInt8) : Option (List UInt8) :=
  match bytes with
  | [] => some []
  | k₁ :: k₂ :: l₁ :: l₂ :: bytes =>
    let key := k₁.toNat * 256 + k₂.toNat
    let length := l₁.toNat * 256 + l₂.toNat
    if length > bytes.length || last.any (key ≤ ·) then
      none
    else do
      let value ← parameterValue key (bytes.take length)
      let others ← parameters? (some key) (bytes.drop length)
      return [k₁, k₂, (value.length / 256).toUInt8, value.length.toUInt8] ++ value ++ others
  | _ => none
  termination_by bytes.length
  decreasing_by
    simp only [List.length_drop, List.length_cons]
    omega

/--
How a service is reached: a priority, a name and parameters.
-/
def serviceBinding (length : Nat) : Reader Payload := do
  let start ← position
  let priority ← take 2
  let target ← name
  let bytes ← take (start + length - (← position))
  match parameters? none bytes with
  | some parameters => return ⟨[(priority, target)], parameters⟩
  | none => fail .malformedData

def pseudonym : Reader Payload := do
  return ⟨[([], ← name)], []⟩

/--
The network of a client: a family, the lengths of two prefixes, and as many bytes of an address as
the first prefix needs.
-/
def clientNetwork? (bytes : List UInt8) : Option (List UInt8) :=
  match bytes with
  | 0 :: family :: source :: scope :: address =>
    let needed := (source.toNat + 7) / 8
    let size := if family == 1 then 4 else if family == 2 then 16 else 0
    if needed ≤ size && needed ≤ address.length && (family == 1 || family == 2) then
      some (0 :: family :: source :: scope :: address.take needed)
    else
      none
  | _ => none

/--
The value of an option: a client network for the code 8, and any bytes for all others.
-/
def optionValue? (code : Nat) (value : List UInt8) : Option (List UInt8) :=
  if code == 8 then clientNetwork? value else some value

/--
The options of a header extension, each with a code, a length and a value. They count as none if the
end of the data cuts off the last one. `total` is the length of the data.
-/
def options (total : Nat) (bytes : List UInt8) : Except Fault (Option (List UInt8)) :=
  match bytes with
  | [] => .ok (some [])
  | [_, _] => .ok none
  | c₁ :: c₂ :: l₁ :: l₂ :: bytes =>
    let length := l₁.toNat * 256 + l₂.toNat
    if length > total then
      .error .dataTooLong
    else if length > bytes.length then
      .ok none
    else
      match optionValue? (c₁.toNat * 256 + c₂.toNat) (bytes.take length) with
      | none => .error .malformedData
      | some value =>
        (options total (bytes.drop length)).map fun others => others.map fun others =>
          [c₁, c₂, (value.length / 256).toUInt8, value.length.toUInt8] ++ value ++ others
  | _ => .error .dataLength
  termination_by bytes.length
  decreasing_by
    simp only [List.length_drop, List.length_cons]
    omega

def headerExtension (length : Nat) : Reader (List UInt8) := fun bytes position =>
  match take length bytes position with
  | .error fault => .error fault
  | .ok (data, position) => (options length data).map fun data => (data.getD [], position)

/--
The readers of the types whose data have names in them, by the codes of the types. They are given
the length of the data.
-/
def named : List (UInt16 × (Nat → Reader Payload)) :=
  [(6, fun _ => startOfAuthority), (15, fun _ => mailExchange), (35, fun _ => namingAuthority),
    (64, serviceBinding), (65, serviceBinding), (65305, fun _ => pseudonym)]

/--
The readers of the types whose data have another form.
-/
def nameless : List (UInt16 × (Nat → Reader (List UInt8))) :=
  [(13, fun _ => hostInfo), (37, atLeast 6), (41, headerExtension), (44, atLeast 2),
    (52, atLeast 3), (62, childSynchronization), (257, certificateAuthority)]

def isQuestionOnly (type : RecordType) : Bool := [0, 251, 252, 255].contains type.code

/--
Read `length` bytes of data for a record of `type`. The data of most types have no form.
-/
def payload (type : RecordType) (length : Nat) : Reader Payload :=
  if isQuestionOnly type then
    fail .unknownType
  else
    match named.lookup type.code with
    | some read => read length
    | none => .ofBytes <$> ((nameless.lookup type.code).getD take) length

end Zeroconf.Message.Reader
