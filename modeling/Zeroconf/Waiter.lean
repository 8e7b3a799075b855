import Zeroconf.Reply

/-!
This module contains the one who waits for a single reply to a query: the first failure, or the
first message that has the number of the query or holds an answer to it.
-/

namespace Zeroconf

/--
A query whose sender waits for the first reply.
-/
structure Waiter where
  query : Message
  /-- The reply that ends the waiting. -/
  reply : Option Reply := none
  deriving DecidableEq, Repr

namespace Waiter

def accepts (waiter : Waiter) (report : Report) : Bool :=
  match report.reply with
  | .message response => report.id == waiter.query.id || waiter.query.isAnsweredBy response
  | .failure _ => true

def receive (waiter : Waiter) (report : Report) : Waiter :=
  if waiter.accepts report then
    { waiter with reply := waiter.reply <|> some report.reply }
  else
    waiter

def result (waiter : Waiter) : Except Error Message :=
  match waiter.reply with
  | some reply => reply.result
  | none => .error .timeout

end Waiter

end Zeroconf
