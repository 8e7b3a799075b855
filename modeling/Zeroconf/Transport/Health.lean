/-!
This module contains the rating of processors, which are watched while they run.
-/

namespace Zeroconf.Transport

inductive Health where
  | healthy
  /-- Nothing has arrived for long, or nobody is there to handle what arrives. -/
  | degraded
  | dead
  deriving DecidableEq, Repr

namespace Health

def label : Health → String
  | healthy => "healthy"
  | degraded => "degraded"
  | dead => "dead"

/-- A processor that has been silent for so many milliseconds is suspicious. -/
def silenceThreshold : Nat := 100000

/-- The milliseconds between two looks at a processor. -/
def checkInterval : Nat := 1000

/--
Rate a processor by whether it is in operation, whether there is a pool to handle packets, and when
something last arrived. A clock that was set back counts as no silence.
-/
def check (operational poolOperational : Bool) (lastActivity now : Nat) : Health :=
  if !operational then dead
  else if now - lastActivity ≥ silenceThreshold || !poolOperational then degraded
  else healthy

end Health

end Zeroconf.Transport
