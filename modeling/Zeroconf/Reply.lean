import Zeroconf.Error
import Zeroconf.Message
import Zeroconf.Name.LinkLocal

/-!
This module contains what comes back for a query, and the two ways in which queries and replies are
told apart by their content: by the domains of the questions, and by the records of the answer.
-/

namespace Zeroconf

inductive Reply where
  | message (response : Message)
  | failure (error : Error)
  deriving DecidableEq, Repr

namespace Reply

def message? : Reply → Option Message
  | message response => some response
  | failure _ => none

def failure? : Reply → Option Error
  | message _ => none
  | failure error => some error

def result : Reply → Except Error Message
  | message response => .ok response
  | failure error => .error error

end Reply

/--
A reply together with the number of the request for which it is given.
-/
structure Report where
  id : UInt16
  reply : Reply
  deriving DecidableEq, Repr

namespace Message

def asksMulticast (query : Message) : Bool := query.questions.any (·.name.isLinkLocal)

def asksUnicast (query : Message) : Bool := query.questions.any (!·.name.isLinkLocal)

/--
Whether a record answers a question: it tells what was asked, or another name for the owner.
-/
def answersQuestion (record : Record) (question : Question) : Bool :=
  record.name.same question.name &&
    (question.type == .any || record.type == question.type || record.type == .cname)

/--
Whether `response` holds an answer to some question of `query`, in one of the two sections that
responders use for it.
-/
def isAnsweredBy (query response : Message) : Bool :=
  response.isResponse &&
    query.questions.any fun question =>
      (response.answers ++ response.additionals).any (answersQuestion · question)

end Message

end Zeroconf
