/-!
This module contains the numbers of queries. Responders answer with the number 0 on a multicast
group, so that no query has it.
-/

namespace Zeroconf

/--
A source of numbers: they count up from `seed`, and `next` is how many have been taken.
-/
structure QueryIds where
  seed : UInt16
  next : UInt16 := 0
  deriving DecidableEq, Repr

namespace QueryIds

def current (ids : QueryIds) : UInt16 := ids.next + ids.seed

def advance (ids : QueryIds) : QueryIds := { ids with next := ids.next + 1 }

/--
Take the next number that is not 0.
-/
def fresh (ids : QueryIds) : UInt16 × QueryIds :=
  if ids.current == 0 then
    (ids.advance.current, ids.advance.advance)
  else
    (ids.current, ids.advance)

end QueryIds

end Zeroconf
