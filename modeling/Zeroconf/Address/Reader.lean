import Zeroconf.Address

/-!
This module contains the readers of IP addresses and socket addresses. A reader takes a text and
returns a value together with the text behind it; `parse?` demands that nothing is left.
-/

namespace Zeroconf

namespace Address

def digit? (radix : Nat) (c : Char) : Option Nat :=
  let value :=
    if '0' ≤ c && c ≤ '9' then some (c.toNat - '0'.toNat)
    else if 'a' ≤ c && c ≤ 'f' then some (c.toNat - 'a'.toNat + 10)
    else if 'A' ≤ c && c ≤ 'F' then some (c.toNat - 'A'.toNat + 10)
    else none
  value.filter (· < radix)

/--
How a number is written inside an address.
-/
structure Numeral where
  radix : Nat
  /-- The greatest number of digits, if it is limited. -/
  maxDigits : Option Nat
  /-- Whether a number of several digits may start with zero. -/
  leadingZero : Bool
  /-- The least number that is too great. -/
  bound : Nat

def Numeral.read? (numeral : Numeral) (cs : List Char) : Option (Nat × List Char) :=
  let isDigit := fun c => (digit? numeral.radix c).isSome
  let digits := cs.takeWhile isDigit
  let value := digits.foldl (fun n c => n * numeral.radix + (digit? numeral.radix c).getD 0) 0
  let tooLong := numeral.maxDigits.any (digits.length > ·)
  let padded := !numeral.leadingZero && digits.length > 1 && digits.head? == some '0'
  if digits.isEmpty || tooLong || padded || value ≥ numeral.bound then
    none
  else
    some (value, cs.dropWhile isDigit)

/-- A byte of an IPv4 address has at most three decimal digits and no leading zero. -/
def octet : Numeral := ⟨10, some 3, false, UInt8.size⟩

/-- A group of an IPv6 address has at most four hexadecimal digits. -/
def group : Numeral := ⟨16, some 4, true, UInt16.size⟩

def port : Numeral := ⟨10, none, true, UInt16.size⟩

def scope : Numeral := ⟨10, none, true, UInt32.size⟩

def skip? (c : Char) : List Char → Option (List Char)
  | [] => none
  | x :: cs => if x == c then some cs else none

def readV4? (cs : List Char) : Option (Ipv4 × List Char) := do
  let (a, cs) ← octet.read? cs
  let (b, cs) ← octet.read? (← skip? '.' cs)
  let (c, cs) ← octet.read? (← skip? '.' cs)
  let (d, cs) ← octet.read? (← skip? '.' cs)
  return (⟨a.toUInt8, b.toUInt8, c.toUInt8, d.toUInt8⟩, cs)

/--
Read up to `room` groups separated by colons. An IPv4 address may stand for the last two groups;
the flag tells whether it did. `first` tells whether no group has been read yet.
-/
def readGroups (room : Nat) (first : Bool) (cs : List Char) : List UInt16 × Bool × List Char :=
  match room with
  | 0 => ([], false, cs)
  | room + 1 =>
    let start := if first then some cs else skip? ':' cs
    let embedded := if room ≥ 1 then start.bind readV4? else none
    match embedded with
    | some (ip, rest) =>
      ([ip.a.toUInt16 <<< 8 ||| ip.b.toUInt16, ip.c.toUInt16 <<< 8 ||| ip.d.toUInt16], true, rest)
    | none =>
      match start.bind group.read? with
      | none => ([], false, cs)
      | some (g, rest) =>
        let (gs, v4, rest) := readGroups room false rest
        (g.toUInt16 :: gs, v4, rest)

def readV6? (cs : List Char) : Option (Ipv6 × List Char) := do
  let (front, v4, cs) := readGroups 8 true cs
  if front.length == 8 then
    return (← Ipv6.ofGroups? front, cs)
  if v4 then
    none
  let cs ← skip? ':' (← skip? ':' cs)
  let (back, _, cs) := readGroups (7 - front.length) true cs
  let zeros := List.replicate (8 - front.length - back.length) 0
  return (← Ipv6.ofGroups? (front ++ zeros ++ back), cs)

def readSocketV4? (cs : List Char) : Option (SocketAddress × List Char) := do
  let (ip, cs) ← readV4? cs
  let (p, cs) ← port.read? (← skip? ':' cs)
  return (.v4 ip p.toUInt16, cs)

def readSocketV6? (cs : List Char) : Option (SocketAddress × List Char) := do
  let (ip, cs) ← readV6? (← skip? '[' cs)
  let (s, cs) ← match skip? '%' cs with
    | some cs => scope.read? cs
    | none => some (0, cs)
  let (p, cs) ← port.read? (← skip? ':' (← skip? ']' cs))
  return (.v6 ip p.toUInt16 s.toUInt32, cs)

/--
The value that `read?` finds, if it takes the whole text.
-/
def whole? {α : Type} (read? : List Char → Option (α × List Char)) (cs : List Char) : Option α :=
  match read? cs with
  | some (value, []) => some value
  | _ => none

end Address

def Ipv4.parse? (cs : List Char) : Option Ipv4 := Address.whole? Address.readV4? cs

def Ipv6.parse? (cs : List Char) : Option Ipv6 := Address.whole? Address.readV6? cs

def IpAddress.parse? (cs : List Char) : Option IpAddress :=
  (Ipv4.parse? cs).map .v4 <|> (Ipv6.parse? cs).map .v6

def SocketAddress.parse? (cs : List Char) : Option SocketAddress :=
  Address.whole? Address.readSocketV4? cs <|> Address.whole? Address.readSocketV6? cs

def IpAddress.ofText? (text : String) : Option IpAddress := parse? text.toList

def SocketAddress.ofText? (text : String) : Option SocketAddress := parse? text.toList

end Zeroconf
