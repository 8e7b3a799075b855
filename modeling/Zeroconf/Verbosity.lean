import Zeroconf.Metric
import Zeroconf.Text.Space

/-!
This module contains the switch for verbose logging. It is on if the configuration says so or one
of several environment variables does; the variables are read again from time to time.
-/

namespace Zeroconf

abbrev Environment := String → Option String

def isTruthy (value : String) : Bool :=
  ["1", "true", "yes", "on"].any fun word =>
    word.toList == Text.lower (Text.trim value.toList)

structure Verbosity where
  /-- What the configuration says. -/
  configured : Bool
  enabled : Bool
  deriving DecidableEq, Repr

namespace Verbosity

def variableNames : List String := ["MDNS_VERBOSE", "MDNS_DEBUG", "DNSSD_VERBOSE"]

/-- The milliseconds between two readings of the variables. -/
def pollInterval : Nat := 60000

def ofEnvironment (environment : Environment) : Bool :=
  (variableNames.filterMap environment).any isTruthy

def create (configured : Bool) (environment : Environment) : Verbosity × List Sample :=
  let enabled := configured || ofEnvironment environment
  (⟨configured, enabled⟩, [.verbose enabled])

/--
Whether the switch was moved when the variables were read again, with the switch after that. Only a
change is measured.
-/
def refresh (verbosity : Verbosity) (environment : Environment) :
    Bool × Verbosity × List Sample :=
  let enabled := verbosity.configured || ofEnvironment environment
  if enabled == verbosity.enabled then
    (false, verbosity, [])
  else
    (true, { verbosity with enabled }, [.verbose enabled])

end Verbosity

end Zeroconf
