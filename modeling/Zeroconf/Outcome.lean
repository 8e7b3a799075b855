import Zeroconf.Error

/-!
This module contains what a listener says after it was called.
-/

namespace Zeroconf

inductive Outcome where
  /-- Go on with the other listeners. -/
  | ok
  /-- Call no other listener; that is no failure. -/
  | stop
  /-- Call no other listener and report a failure. -/
  | fail (reason : String)
  deriving DecidableEq, Repr

namespace Outcome

/--
A failure seen by a listener becomes a failure of that listener, told by its wording.
-/
def ofError (error : Error) : Outcome := fail error.message

def ofResult : Except Error Unit → Outcome
  | .ok _ => ok
  | .error error => ofError error

end Outcome

end Zeroconf
