import Zeroconf.Error

/-!
This module contains what is known of network interfaces: which of them carry no queries, how much
fits into a datagram on them, and which addresses belong together.
-/

namespace Zeroconf.Transport

/-- What the headers of the network layers take, those of IPv6 in either case. -/
def headerSize : Nat := 40 + 8

/--
How much fits into a datagram on a link that transmits `mtu` bytes at once.
-/
def payloadSize (mtu : Nat) : Nat := mtu - headerSize

def virtualPrefixes : List String := ["lo", "veth", "docker", "br-", "virbr", "vmnet", "utun"]

def isVirtual (interface : String) : Bool :=
  virtualPrefixes.any fun start => start.toList.isPrefixOf interface.toList

def checkFamilies (interface address : IpAddress) : Except Error Bool :=
  if interface.isV6 == address.isV6 then
    .ok interface.isV6
  else
    .error (.config (s!"interface {interface.text} and address {address.text} " ++
      "are of different address families"))

end Zeroconf.Transport
