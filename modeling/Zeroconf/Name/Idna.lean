import Zeroconf.Name.Idna.Repertoire
import Zeroconf.Text.Punycode

/-!
This module contains internationalized domain names: the form in ASCII of names whose labels hold
other characters. Letters are folded to lower case on the way, and a name that holds a character
which no host name may hold has no such form.
-/

namespace Zeroconf.Name.Idna

/--
Whether a host name may hold the ASCII character `c`. Dots separate labels.
-/
def isHostChar (c : Char) : Bool := c.isLower || c.isDigit || c == '-' || c == '.'

/--
Characters up to U+01FF that stand for others in a way of their own.
-/
def variants : List (Char × String) := [
  ('\u00AA', "a"), ('\u00AD', ""), ('\u00B2', "2"), ('\u00B3', "3"), ('\u00B5', "\u03BC"),
  ('\u00B9', "1"), ('\u00BA', "o"), ('\u00BC', "1\u20444"), ('\u00BD', "1\u20442"),
  ('\u00BE', "3\u20444"), ('\u0130', "i\u0307"), ('\u0132', "ij"), ('\u0133', "ij"),
  ('\u013F', "l\u00B7"), ('\u0140', "l\u00B7"), ('\u0149', "\u02BCn"), ('\u0178', "\u00FF"),
  ('\u017F', "s"), ('\u0181', "\u0253"), ('\u0186', "\u0254"), ('\u0189', "\u0256"),
  ('\u018A', "\u0257"), ('\u018E', "\u01DD"), ('\u018F', "\u0259"), ('\u0190', "\u025B"),
  ('\u0193', "\u0260"), ('\u0194', "\u0263"), ('\u0196', "\u0269"), ('\u0197', "\u0268"),
  ('\u019C', "\u026F"), ('\u019D', "\u0272"), ('\u019F', "\u0275"), ('\u01A6', "\u0280"),
  ('\u01A9', "\u0283"), ('\u01AE', "\u0288"), ('\u01B1', "\u028A"), ('\u01B2', "\u028B"),
  ('\u01B7', "\u0292"), ('\u01C4', "d\u017E"), ('\u01C5', "d\u017E"), ('\u01C6', "d\u017E"),
  ('\u01C7', "lj"), ('\u01C8', "lj"), ('\u01C9', "lj"), ('\u01CA', "nj"), ('\u01CB', "nj"),
  ('\u01CC', "nj"), ('\u01F1', "dz"), ('\u01F2', "dz"), ('\u01F3', "dz"), ('\u01F6', "\u0195"),
  ('\u01F7', "\u01BF")]

/--
The capital letters up to U+01FF that are not among the variants stand 32 places in front of the
small ones, or right in front of them.
-/
def capitalDistance? (c : Char) : Option Nat :=
  if '\u00C0' ≤ c && c ≤ '\u00DE' then some 32
  else if '\u0100' ≤ c && c ≤ '\u01FF' then some 1
  else none

/--
The characters for which `c` stands in a name, if a name may hold it. Of the characters outside
ASCII that stand for others only those up to U+01FF are known.
-/
def fold? (c : Char) : Option (List Char) :=
  if Text.Punycode.isAscii c then
    if isHostChar c.toLower then some [c.toLower] else none
  else
    match variants.lookup c with
    | some text => some text.toList
    | none =>
      if inRepertoire c then some [c]
      else (capitalDistance? c).map fun distance => [Char.ofNat (c.toNat + distance)]

/-- How labels start that hold other characters than those of ASCII. -/
def encodedStart : List Char := "xn--".toList

def encodeLabel? (label : List Char) : Option (List Char) :=
  if encodedStart.isPrefixOf label then
    let code := label.drop encodedStart.length
    match Text.Punycode.decode? code with
    | none => none
    | some text =>
      let isAllowed := fun (c : Char) =>
        if Text.Punycode.isAscii c then isHostChar c && c != '.' else inRepertoire c
      if code.getLast? != some '-' && !text.isEmpty && text.all isAllowed then some label else none
  else if label.all Text.Punycode.isAscii then
    some label
  else
    some (encodedStart ++ Text.Punycode.encode label)

def toAscii? (text : List Char) : Option (List Char) := do
  let folded ← text.mapM fold?
  let labels ← (Text.splitAll (· == '.') folded.flatten).mapM encodeLabel?
  return ['.'].intercalate labels

end Zeroconf.Name.Idna
