import Zeroconf.Lookup

/-!
This module contains a way to send queries that acts by a script: the first line that fits a
question gives the reply.
-/

namespace Zeroconf.Lookup

/--
A reply in a script, with the question to which it is given. What is missing fits any question.
-/
structure Line where
  name : Option Name := none
  type : Option RecordType := none
  reply : Reply
  deriving DecidableEq, Repr

def Line.fits (line : Line) (question : Question) : Bool :=
  line.name.all (·.same question.name) && line.type.all (· == question.type)

/--
Send queries by a script, and keep a record of the questions. A question that no line fits gets no
reply.
-/
def scripted (lines : List Line) : Lookup (List Question) where
  send query asked :=
    match query.questions with
    | question :: _ =>
      ((((lines.find? (·.fits question)).map (·.reply.result)).getD (.error .timeout)),
        asked ++ [question])
    | [] => (.error .timeout, asked)

end Zeroconf.Lookup
