import Zeroconf.Name

/-!
This module contains the domains whose names are resolved on the local link by multicast: `local.`
and the reverse domains of link-local addresses. A name belongs to them by its last labels alone.
-/

namespace Zeroconf.Name

def linkLocalZones : List (List Label) :=
  [["local"], ["254", "169", "in-addr", "arpa"], ["8", "e", "f", "ip6", "arpa"],
    ["9", "e", "f", "ip6", "arpa"], ["a", "e", "f", "ip6", "arpa"],
    ["b", "e", "f", "ip6", "arpa"]].map fun zone => zone.map fun label =>
      label.toList.map Ascii.byte

/--
Whether the name is resolved by multicast.
-/
def isLinkLocal (name : Name) : Bool := linkLocalZones.any name.endsWith

end Zeroconf.Name
