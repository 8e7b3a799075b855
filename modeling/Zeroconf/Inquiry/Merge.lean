import Zeroconf.Reply

/-!
This module contains the answer that is put together from several replies. It is the query with the
records of all replies that tell of no error, each record once.
-/

namespace Zeroconf.Inquiry

/--
Append `records` to `known`, leaving out those that are the same as one that is already there.
-/
def addNew (known records : List Record) : List Record :=
  records.foldl (fun known record =>
    if known.any (·.same record) then known else known ++ [record]) known

def recordCount (message : Message) : Nat :=
  message.answers.length + message.authorities.length + message.additionals.length

/--
An answer in the making, and what has been heard so far.
-/
structure Draft where
  answer : Message
  messages : Nat := 0
  failures : Nat := 0
  firstFailure : Option Error := none
  deriving DecidableEq, Repr

def absorb (answer response : Message) : Message :=
  { answer with
    authoritative := answer.authoritative || response.authoritative
    authenticData := answer.authenticData || response.authenticData
    answers := addNew answer.answers response.answers
    authorities := addNew answer.authorities response.authorities
    additionals := addNew answer.additionals response.additionals }

/--
The draft after a reply. A message that tells of an error is counted, but adds nothing.
-/
def Draft.add (draft : Draft) : Reply → Draft
  | .failure error =>
    { draft with
      failures := draft.failures + 1
      firstFailure := draft.firstFailure <|> some error }
  | .message response =>
    { draft with
      answer := if response.code == .noError then absorb draft.answer response else draft.answer
      messages := draft.messages + 1 }

/--
The answer to `query` that follows from `replies` of those `sent` who were asked. If there are
failures only, and at least as many as were asked, it is the first failure. If no record was added
to the query, the name is said not to exist.
-/
def merge (query : Message) (replies : List Reply) (sent : Nat) : Except Error Message :=
  let draft := replies.foldl Draft.add { answer := { query with isResponse := true } }
  let settled : Message :=
    if recordCount draft.answer == recordCount query then
      { draft.answer with code := .nxDomain }
    else
      draft.answer
  match draft.firstFailure with
  | none => .ok settled
  | some first =>
    if draft.messages == 0 && draft.failures ≥ sent then .error first else .ok settled

end Zeroconf.Inquiry
