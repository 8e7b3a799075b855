import Zeroconf.Address.Reader
import Zeroconf.Text.Space

/-!
This module contains the reader of `resolv.conf`, the file in which a system lists its nameservers.
A line counts if its first field is `nameserver` and its second one an address, which may name a
zone behind a percent sign.
-/

namespace Zeroconf.Nameserver

def standardPort : UInt16 := 53

/--
A decimal number below 2³², with or without a plus sign.
-/
def scopeNumber? (cs : List Char) : Option UInt32 :=
  let digits := if cs.head? == some '+' then cs.drop 1 else cs
  (Address.whole? Address.scope.read? digits).map Nat.toUInt32

/--
The nameserver that a field names. `zoneIndex` knows the zones by their names; an unknown zone is
none at all.
-/
def ofField? (zoneIndex : List Char → Option UInt32) (field : List Char) : Option SocketAddress :=
  match Text.splitFirst? (· == '%') field with
  | none => (IpAddress.parse? field).map (SocketAddress.of · standardPort)
  | some (address, zone) =>
    (IpAddress.parse? address).map fun
      | .v4 ip => .v4 ip standardPort
      | .v6 ip => .v6 ip standardPort ((scopeNumber? zone <|> zoneIndex zone).getD 0)

def ofLine? (zoneIndex : List Char → Option UInt32) (line : List Char) : Option SocketAddress :=
  let content := line.takeWhile fun c => c != '#' && c != ';'
  match Text.fields content with
  | keyword :: field :: _ =>
    if keyword == "nameserver".toList then ofField? zoneIndex field else none
  | _ => none

def ofText (zoneIndex : List Char → Option UInt32) (text : String) : List SocketAddress :=
  (Text.lines text.toList).filterMap (ofLine? zoneIndex)

end Zeroconf.Nameserver
