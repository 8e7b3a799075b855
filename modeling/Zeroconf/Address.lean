/-!
This module contains IP addresses and socket addresses, their canonical text and its reader. The
text of an IPv6 address replaces the longest run of at least two zero groups, the first one of
several, by `::`.
-/

namespace Zeroconf

/--
An IPv4 address, most significant byte first.
-/
structure Ipv4 where
  a : UInt8
  b : UInt8
  c : UInt8
  d : UInt8
  deriving DecidableEq, Repr, Inhabited

/--
An IPv6 address as eight groups of sixteen bits, most significant group first.
-/
structure Ipv6 where
  g₀ : UInt16
  g₁ : UInt16
  g₂ : UInt16
  g₃ : UInt16
  g₄ : UInt16
  g₅ : UInt16
  g₆ : UInt16
  g₇ : UInt16
  deriving DecidableEq, Repr, Inhabited

inductive IpAddress where
  | v4 (ip : Ipv4)
  | v6 (ip : Ipv6)
  deriving DecidableEq, Repr, Inhabited

/--
An address with a port. An IPv6 address is scoped to an interface unless `scope` is 0.
-/
inductive SocketAddress where
  | v4 (ip : Ipv4) (port : UInt16)
  | v6 (ip : Ipv6) (port : UInt16) (scope : UInt32)
  deriving DecidableEq, Repr, Inhabited

namespace Ipv4

def octets (ip : Ipv4) : List UInt8 := [ip.a, ip.b, ip.c, ip.d]

def ofOctets? : List UInt8 → Option Ipv4
  | [a, b, c, d] => some ⟨a, b, c, d⟩
  | _ => none

theorem ofOctets?_octets (ip : Ipv4) : ofOctets? ip.octets = some ip := rfl

def unspecified : Ipv4 := ⟨0, 0, 0, 0⟩

def loopback : Ipv4 := ⟨127, 0, 0, 1⟩

/--
Whether the address names a group of hosts: 224.0.0.0/4.
-/
def isMulticast (ip : Ipv4) : Bool := 224 ≤ ip.a && ip.a ≤ 239

/--
Whether the address is valid on one link only: 169.254.0.0/16.
-/
def isLinkLocal (ip : Ipv4) : Bool := ip.a == 169 && ip.b == 254

def text (ip : Ipv4) : String :=
  ".".intercalate (ip.octets.map fun o => toString o.toNat)

end Ipv4

namespace Ipv6

def groups (ip : Ipv6) : List UInt16 :=
  [ip.g₀, ip.g₁, ip.g₂, ip.g₃, ip.g₄, ip.g₅, ip.g₆, ip.g₇]

def ofGroups? : List UInt16 → Option Ipv6
  | [g₀, g₁, g₂, g₃, g₄, g₅, g₆, g₇] => some ⟨g₀, g₁, g₂, g₃, g₄, g₅, g₆, g₇⟩
  | _ => none

theorem ofGroups?_groups (ip : Ipv6) : ofGroups? ip.groups = some ip := rfl

/--
The sixteen bytes of the address, most significant byte first.
-/
def octets (ip : Ipv6) : List UInt8 :=
  ip.groups.flatMap fun (g : UInt16) => [(g >>> 8).toUInt8, g.toUInt8]

def ofOctets? (bytes : List UInt8) : Option Ipv6 :=
  (pairs bytes).bind ofGroups?
where
  pairs : List UInt8 → Option (List UInt16)
    | [] => some []
    | high :: low :: rest => (pairs rest).map ((high.toUInt16 <<< 8 ||| low.toUInt16) :: ·)
    | [_] => none

def unspecified : Ipv6 := ⟨0, 0, 0, 0, 0, 0, 0, 0⟩

/--
Whether the address names a group of hosts: ff00::/8.
-/
def isMulticast (ip : Ipv6) : Bool := ip.g₀ >>> 8 == 0xFF

/--
Whether the address is valid on one link only: fe80::/10.
-/
def isLinkLocal (ip : Ipv6) : Bool := ip.g₀ &&& 0xFFC0 == 0xFE80

/--
The IPv4 address that `ip` stands for, if it lies in ::ffff:0:0/96.
-/
def mapped? (ip : Ipv6) : Option Ipv4 :=
  if ip.groups.take 5 == [0, 0, 0, 0, 0] && ip.g₅ == 0xFFFF then
    some ⟨(ip.g₆ >>> 8).toUInt8, ip.g₆.toUInt8, (ip.g₇ >>> 8).toUInt8, ip.g₇.toUInt8⟩
  else
    none

/--
The start and the length of the longest run of zeros, the first one of several.
-/
def longestZeroRun (gs : List UInt16) : Nat × Nat :=
  go 0 (0, 0) gs
where
  go (start : Nat) (best : Nat × Nat) : List UInt16 → Nat × Nat
    | [] => best
    | g :: gs =>
      let run := ((g :: gs).takeWhile (· == 0)).length
      go (start + 1) (if run > best.2 then (start, run) else best) gs

/--
A number in lower-case hexadecimal digits without leading zeros.
-/
def hex (g : UInt16) : String := String.ofList (Nat.toDigits 16 g.toNat)

def text (ip : Ipv6) : String :=
  match ip.mapped? with
  | some v4 => "::ffff:" ++ v4.text
  | none =>
    let (start, length) := longestZeroRun ip.groups
    if length > 1 then
      join (ip.groups.take start) ++ "::" ++ join (ip.groups.drop (start + length))
    else
      join ip.groups
where
  join (gs : List UInt16) : String := ":".intercalate (gs.map hex)

end Ipv6

namespace IpAddress

def isMulticast : IpAddress → Bool
  | v4 ip => ip.isMulticast
  | v6 ip => ip.isMulticast

def isLinkLocal : IpAddress → Bool
  | v4 ip => ip.isLinkLocal
  | v6 ip => ip.isLinkLocal

def isV6 : IpAddress → Bool
  | v4 _ => false
  | v6 _ => true

def text : IpAddress → String
  | v4 ip => ip.text
  | v6 ip => ip.text

end IpAddress

namespace SocketAddress

def of (ip : IpAddress) (port : UInt16) : SocketAddress :=
  match ip with
  | .v4 ip => v4 ip port
  | .v6 ip => v6 ip port 0

def ip : SocketAddress → IpAddress
  | v4 ip _ => .v4 ip
  | v6 ip _ _ => .v6 ip

def port : SocketAddress → UInt16
  | v4 _ port => port
  | v6 _ port _ => port

def text : SocketAddress → String
  | v4 ip port => ip.text ++ ":" ++ toString port.toNat
  | v6 ip port scope =>
    let zone := if scope == 0 then "" else "%" ++ toString scope.toNat
    "[" ++ ip.text ++ zone ++ "]:" ++ toString port.toNat

end SocketAddress

end Zeroconf
