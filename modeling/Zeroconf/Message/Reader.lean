import Zeroconf.Message.Reader.Payload

/-!
This module contains the reader of messages from bytes. A record that extends the header counts as
such in the last section only.
-/

namespace Zeroconf.Message

namespace Reader

def recordData (type : RecordType) (length : Nat) : Reader RecordData := do
  if length == 0 then
    return .absent
  let start ← position
  let data ← read
  if (← position) != start + length then
    fail .dataLength
  return data
where
  read : Reader RecordData :=
    if type == .a then do
      return .a ⟨← byte, ← byte, ← byte, ← byte⟩
    else if type == .aaaa then do
      return .aaaa ⟨← word, ← word, ← word, ← word, ← word, ← word, ← word, ← word⟩
    else if type == .ptr then .ptr <$> name
    else if type == .cname then .cname <$> name
    else if type == .ns then .ns <$> name
    else if type == .txt then do .txt <$> strings ((← position) + length)
    else if type == .srv then do
      return .srv (← word) (← word) (← word) (← name)
    else .raw <$> payload type length

/--
The class of a record. In an extension of the header it tells the greatest message that the sender
can receive, which is no less than `Edns.leastPayload`.
-/
def recordClass (type : RecordType) : Reader UInt16 := do
  let cls ← word
  return if type == .opt then max Edns.leastPayload cls else cls

def record : Reader Record := do
  let name ← name
  let type := RecordType.mk (← word)
  if type == .opt && !name.labels.isEmpty then
    fail .misplacedExtension
  let cls ← recordClass type
  let ttl ← longWord
  let length := (← word).toNat
  if length > (← remaining) then
    fail .dataTooLong
  return { name, type, cls, ttl, data := ← recordData type length }

def question : Reader Question := do
  return ⟨← name, ⟨← word⟩, ← word⟩

end Reader

/--
The extension that a record holds, and the upper bits of the response code.
-/
def extensionOf (record : Record) : Edns × UInt16 :=
  (⟨record.cls, (record.ttl >>> 16).toUInt8⟩, (record.ttl >>> 24).toUInt16)

def bit (flags : UInt16) (i : UInt16) : Bool := flags >>> i &&& 1 == 1

/--
Read a message. Bytes behind the last record are ignored.
-/
def read : Reader Message := do
  let id ← Reader.word
  let flags ← Reader.word
  let questionCount ← Reader.word
  let answerCount ← Reader.word
  let authorityCount ← Reader.word
  let additionalCount ← Reader.word
  let questions ← Reader.repeated questionCount.toNat Reader.question
  let answers ← Reader.repeated answerCount.toNat Reader.record
  let authorities ← Reader.repeated authorityCount.toNat Reader.record
  let additionals ← Reader.repeated additionalCount.toNat Reader.record
  let extensions := additionals.filter (·.type == .opt)
  if extensions.length > 1 then
    Reader.fail .secondExtension
  let extension := extensions.head?.map extensionOf
  return {
    id
    isResponse := bit flags 15
    opcode := (flags >>> 11 &&& 0xF).toUInt8
    authoritative := bit flags 10
    truncated := bit flags 9
    recursionDesired := bit flags 8
    recursionAvailable := bit flags 7
    authenticData := bit flags 5
    checkingDisabled := bit flags 4
    code := (extension.elim 0 (·.2)) <<< 4 ||| (flags &&& 0xF)
    questions
    answers
    authorities
    additionals := additionals.filter (·.type != .opt)
    edns := extension.map (·.1)
  }

def decode (bytes : List UInt8) : Except Fault Message :=
  (read bytes.toArray 0).map (·.1)

end Zeroconf.Message
