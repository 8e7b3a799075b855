import Zeroconf.Message

/-!
This module contains the writer of messages. The end of a name that has been written before is
replaced by a pointer. A message holds at most `Writer.capacity` bytes; from the first record that
does not fit, a section is cut off and the message is marked as truncated.
-/

namespace Zeroconf.Message

inductive WriteFault where
  /-- The message would exceed its greatest size. -/
  | full
  | labelTooLong
  | nameTooLong
  | stringTooLong
  deriving DecidableEq, Repr

def WriteFault.message : WriteFault → String
  | .full => "max buffer size exceeded"
  | .labelTooLong => "label bytes exceed 63"
  | .nameTooLong => "name label data exceed 255"
  | .stringTooLong => "char data length exceeds 255"

/--
A message that is being written, with the places of the names in it.
-/
structure Writer where
  bytes : Array UInt8 := #[]
  /-- Where the labels of a name start, and their bytes. -/
  names : List (Nat × List UInt8) := []

namespace Writer

def capacity : Nat := 65535

/-- A pointer cannot lead to a name that ends here or later. -/
def pointerBound : Nat := 0x3FFF

def push (writer : Writer) (bytes : List UInt8) : Except WriteFault Writer :=
  if writer.bytes.size + bytes.length > capacity then
    .error .full
  else
    .ok { writer with bytes := writer.bytes ++ bytes.toArray }

def wordBytes (w : UInt16) : List UInt8 := [(w >>> 8).toUInt8, w.toUInt8]

def longWordBytes (w : UInt32) : List UInt8 :=
  wordBytes (w >>> 16).toUInt16 ++ wordBytes w.toUInt16

def stringBytes (string : List UInt8) : Except WriteFault (List UInt8) :=
  if string.length > 255 then .error .stringTooLong
  else .ok (string.length.toUInt8 :: string)

/--
Write the labels of a name up to the first end of it that is known, then a pointer to that; or all
labels and the root. `stop` is where the labels would end without a pointer.
-/
def pushLabels (stop : Nat) (writer : Writer) : List Label → Except WriteFault Writer
  | [] => writer.push [0]
  | label :: labels =>
    let suffix := (label :: labels).flatMap Label.wire
    match writer.names.find? (·.2 == suffix) with
    | some (place, _) => writer.push (wordBytes (0xC000 ||| place.toUInt16))
    | none =>
      let known :=
        if stop < pointerBound then writer.names ++ [(writer.bytes.size, suffix)]
        else writer.names
      match ({ writer with names := known } : Writer).push label.wire with
      | .error fault => .error fault
      | .ok writer => pushLabels stop writer labels

def name (writer : Writer) (name : Name) : Except WriteFault Writer := do
  if name.labels.any (·.length > Label.maxLength) then
    .error .labelTooLong
  let stop := writer.bytes.size + (name.labels.flatMap Label.wire).length
  if stop > capacity then
    .error .full
  let written ← pushLabels stop writer name.labels
  if written.bytes.size - writer.bytes.size > Name.maxWireLength then
    .error .nameTooLong
  return written

def recordData (writer : Writer) : RecordData → Except WriteFault Writer
  | .a ip => writer.push ip.octets
  | .aaaa ip => writer.push ip.octets
  | .ptr target | .cname target | .ns target => writer.name target
  | .txt strings => do writer.push (← strings.mapM stringBytes).flatten
  | .srv priority weight port target => do
    (← writer.push ([priority, weight, port].flatMap wordBytes)).name target
  | .raw payload => writer.push payload.bytes
  | .absent => .ok writer

def record (writer : Writer) (record : Record) : Except WriteFault Writer := do
  let writer ← writer.name record.name
  let writer ← writer.push (wordBytes record.type.code ++ wordBytes record.cls)
  let writer ← writer.push (longWordBytes record.ttl)
  let place := writer.bytes.size
  let writer ← (← writer.push [0, 0]).recordData record.data
  let length := wordBytes (writer.bytes.size - place - 2).toUInt16
  return { writer with
    bytes := (writer.bytes.setIfInBounds place (length.getD 0 0)).setIfInBounds (place + 1)
      (length.getD 1 0) }

def question (writer : Writer) (question : Question) : Except WriteFault Writer := do
  (← writer.name question.name).push (wordBytes question.type.code ++ wordBytes question.cls)

/--
Write as many records as fit. Returns their number and whether these are all.
-/
def records (writer : Writer) : List Record → Except WriteFault (Writer × Nat × Bool)
  | [] => .ok (writer, 0, true)
  | r :: rest =>
    match writer.record r with
    | .error .full => .ok (writer, 0, false)
    | .error fault => .error fault
    | .ok writer =>
      match records writer rest with
      | .error fault => .error fault
      | .ok (writer, count, complete) => .ok (writer, count + 1, complete)

end Writer

def extensionRecord (edns : Edns) (code : ResponseCode) : Record :=
  { name := .root
    type := .opt
    cls := edns.payload
    ttl := (code >>> 4).toUInt32 <<< 24 ||| edns.version.toUInt32 <<< 16
    data := .absent }

def flagWord (message : Message) (truncated : Bool) : UInt16 :=
  let bits : List (UInt16 × Bool) :=
    [(15, message.isResponse), (10, message.authoritative), (9, truncated),
      (8, message.recursionDesired), (7, message.recursionAvailable),
      (5, message.authenticData), (4, message.checkingDisabled)]
  let fields := (message.opcode.toUInt16 &&& 0xF) <<< 11 ||| (message.code &&& 0xF)
  bits.foldl (fun word (i, set) => if set then word ||| 1 <<< i else word) fields

def encode (message : Message) : Except WriteFault (List UInt8) := do
  let writer : Writer := { bytes := Array.replicate 12 0 }
  let writer ← message.questions.foldlM Writer.question writer
  let (writer, answerCount, answersFit) ← writer.records message.answers
  let (writer, authorityCount, authoritiesFit) ← writer.records message.authorities
  let extension := message.edns.toList.map (extensionRecord · message.code)
  let (writer, additionalCount, additionalsFit) ← writer.records (message.additionals ++ extension)
  let truncated :=
    message.truncated || !answersFit || !authoritiesFit || !additionalsFit
  let counts := [message.questions.length, answerCount, authorityCount, additionalCount]
  let header := [message.id, flagWord message truncated] ++ counts.map Nat.toUInt16
  return header.flatMap Writer.wordBytes ++ writer.bytes.toList.drop 12

end Zeroconf.Message
