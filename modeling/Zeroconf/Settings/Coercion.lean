import Zeroconf.Address.Reader
import Zeroconf.Settings.Value
import Zeroconf.Text.Decimal

/-!
This module contains the conversion of configuration values to the types of the settings. An exact
conversion takes a value only if it has the type already. A lenient one turns truth values, numbers
and texts into each other where that makes sense.
-/

namespace Zeroconf.Settings

/--
How far a value may be from the type of a setting.
-/
inductive Coercion where
  | exact
  | lenient
  deriving DecidableEq, Repr

namespace Coercion

def wordBool? (text : String) : Option Bool :=
  let word := String.ofList (Text.lower text.toList)
  if ["1", "true", "on", "yes"].contains word then some true
  else if ["0", "false", "off", "no"].contains word then some false
  else none

/--
The number that stands for a text: 1 or 0 for a word, or else the number that it spells.
-/
def wordInt? (text : String) : Option Int :=
  let word := String.ofList (Text.lower text.toList)
  if ["true", "on", "yes"].contains word then some 1
  else if ["false", "off", "no"].contains word then some 0
  else Text.Decimal.int? text.toList

/--
Whether a text may spell a number that has no sign: it does not start with a minus sign.
-/
def hasNoMinus (text : String) : Bool := text.toList.head? != some '-'

/--
A natural number below `bound`. Fractions are rounded, a half away from zero.
-/
def nat? (coercion : Coercion) (bound : Nat) (value : Value) : Option Nat :=
  let number? : Option Int :=
    match coercion, value with
    | _, .int n => some n
    | .lenient, .bool b => some b.toNat
    | .lenient, .float x => some x.round.toUInt64.toNat
    | .lenient, .string text => if hasNoMinus text then wordInt? text else none
    | _, _ => none
  number?.bind fun n => if 0 ≤ n && n < bound then some n.toNat else none

def int32? (coercion : Coercion) (value : Value) : Option Int :=
  let number? : Option Int :=
    match coercion, value with
    | _, .int n => some n
    | .lenient, .bool b => some b.toNat
    | .lenient, .float x => some x.round.toInt64.toInt
    | .lenient, .string text => wordInt? text
    | _, _ => none
  number?.filter fun n => Int32.minValue.toInt ≤ n && n ≤ Int32.maxValue.toInt

def bool? (coercion : Coercion) (value : Value) : Option Bool :=
  match coercion, value with
  | _, .bool b => some b
  | .lenient, .int n => some (n != 0)
  | .lenient, .float x => some (x != 0)
  | .lenient, .string text => wordBool? text
  | _, _ => none

def string? (coercion : Coercion) (value : Value) : Option String :=
  match coercion, value with
  | _, .string text => some text
  | .lenient, .bool b => some (if b then "true" else "false")
  | .lenient, .int n => some (toString n)
  | .lenient, .float x => some (Text.Decimal.floatText x)
  | _, _ => none

def option? {α : Type} (read? : Value → Option α) (value : Value) : Option (Option α) :=
  match value with
  | .null => some none
  | value => (read? value).map some

def list? {α : Type} (read? : Value → Option α) (value : Value) : Option (List α) :=
  match value with
  | .list items => items.mapM read?
  | _ => none

/--
The values of fields with the given names. They may also be listed in the order of their names.
-/
def fields? (coercion : Coercion) (names : List String) (value : Value) :
    Option (String → Option Value) :=
  match value with
  | .table entries => some fun name => entries.lookup name
  | .list items =>
    if coercion == .exact && items.length > names.length then none
    else some fun name => (names.zip items).lookup name
  | _ => none

/--
The one of several choices that a value names, either by its name or as a table with one entry of
that name. A lenient choice takes the name in any case.
-/
def choice? {α : Type} (coercion : Coercion) (choices : List (String × α)) (value : Value) :
    Option α :=
  let named := fun (name : String) =>
    match coercion with
    | .exact => choices.lookup name
    | .lenient =>
      (choices.find? fun (choice, _) =>
        Text.lower choice.toList == Text.lower name.toList).map (·.2)
  match coercion, value with
  | _, .string name => named name
  | .exact, .table [(name, .null)] => named name
  | .lenient, .table [(name, _)] => named name
  | _, _ => none

def ipAddress? (coercion : Coercion) (value : Value) : Option IpAddress :=
  (coercion.string? value).bind fun text => IpAddress.parse? text.toList

def socketAddress? (coercion : Coercion) (value : Value) : Option SocketAddress :=
  (coercion.string? value).bind fun text => SocketAddress.parse? text.toList

def field? {α : Type} (fields : String → Option Value) (name : String) (read? : Value → Option α)
    (default : α) : Option α :=
  match fields name with
  | some value => read? value
  | none => some default

def required? {α : Type} (fields : String → Option Value) (name : String)
    (read? : Value → Option α) : Option α :=
  (fields name).bind read?

end Coercion

end Zeroconf.Settings
