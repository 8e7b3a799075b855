import Zeroconf.Work.Pool
import Zeroconf.Work.Timetable

/-!
This module contains the three places at which the library has work done: a pool that handles
packets, a pool for everything else, and a timetable with a pool of its own.
-/

namespace Zeroconf.Work

structure Crew (τ : Type) where
  network : Pool τ
  general : Pool τ
  scheduled : Pool τ
  timetable : Timetable τ := {}
  deriving Repr

namespace Crew

variable {τ : Type}

def start (settings : ExecutorSettings) : Crew τ :=
  { network := .start "mdns-net" settings.network
    general := .start "mdns-exec" settings.general
    scheduled := .start "mdns-sched" settings.scheduled }

def keepsTime (crew : Crew τ) : Bool :=
  !crew.timetable.closed && crew.scheduled.isOperational

def isOperational (crew : Crew τ) : Bool :=
  crew.network.isOperational && crew.general.isOperational && crew.keepsTime

def status (crew : Crew τ) : List (String × Bool) :=
  [("operational", crew.isOperational), ("network", crew.network.isOperational),
    ("general", crew.general.isOperational), ("scheduler", crew.keepsTime)]

def stopTimetable (crew : Crew τ) : Crew τ :=
  { crew with timetable := crew.timetable.shutdown, scheduled := crew.scheduled.shutdown.settle }

def stopNetwork (crew : Crew τ) : Crew τ :=
  { crew with network := crew.network.shutdown.settle }

def stopGeneral (crew : Crew τ) : Crew τ :=
  { crew with general := crew.general.shutdown.settle }

/--
Stop everything, the timetable first.
-/
def shutdown (crew : Crew τ) : Crew τ := crew.stopTimetable.stopNetwork.stopGeneral

end Crew

end Zeroconf.Work
