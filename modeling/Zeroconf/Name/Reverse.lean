import Zeroconf.Address
import Zeroconf.Name.HostText

/-!
This module contains the names under which the host names of an address are registered: the
decimal bytes or the hexadecimal digits of the address in reverse order.
-/

namespace Zeroconf.Name

def decimalLabel (b : UInt8) : Label := (Nat.toDigits 10 b.toNat).map Ascii.byte

def nibbleLabel (n : UInt8) : Label := (Nat.toDigits 16 n.toNat).map Ascii.byte

/--
The labels of a byte of an IPv6 address: its lower digit, then its higher one.
-/
def nibbleLabels (b : UInt8) : List Label := [nibbleLabel (b &&& 0xF), nibbleLabel (b >>> 4)]

def arpa (family : String) : List Label := [family, "arpa"].map fun l => l.toList.map Ascii.byte

/--
The name whose pointer records tell the host names of `ip`.
-/
def ofAddress : IpAddress → Name
  | .v4 ip => ⟨ip.octets.reverse.map decimalLabel ++ arpa "in-addr", true⟩
  | .v6 ip => ⟨ip.octets.reverse.flatMap nibbleLabels ++ arpa "ip6", true⟩

def dottedNumber (radix : Nat) (n : UInt8) : List Char := Nat.toDigits radix n.toNat ++ ['.']

def reverseText : IpAddress → String
  | .v4 ip => .ofList (ip.octets.reverse.flatMap (dottedNumber 10)) ++ "in-addr.arpa."
  | .v6 ip =>
    .ofList (ip.octets.reverse.flatMap fun b =>
      dottedNumber 16 (b &&& 0xF) ++ dottedNumber 16 (b >>> 4)) ++ "ip6.arpa."

/--
The name of `ip` as it is read from its text.
-/
def reverse (ip : IpAddress) : Except HostFault Name := ofPlainText (reverseText ip)

end Zeroconf.Name
