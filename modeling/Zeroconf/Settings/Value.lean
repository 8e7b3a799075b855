import Zeroconf.Text.Space

/-!
This module contains configuration as a tree of values, and paths that lead to a place in it. To set
a value at a path creates what is missing on the way and replaces what is in the way.
-/

namespace Zeroconf.Settings

inductive Value where
  | null
  | bool (value : Bool)
  | int (value : Int)
  | float (value : Float)
  | string (value : String)
  | list (items : List Value)
  | table (entries : List (String × Value))
  deriving Inhabited

namespace Value

def entries : Value → List (String × Value)
  | table entries => entries
  | _ => []

def items : Value → List Value
  | list items => items
  | _ => []

/--
Entries with the value at `key` replaced by what `f` makes of it; it is null if there is none.
-/
def modifyEntry (key : String) (f : Value → Value) :
    List (String × Value) → List (String × Value)
  | [] => [(key, f null)]
  | (k, v) :: entries =>
    if k == key then (k, f v) :: entries else (k, v) :: modifyEntry key f entries

/--
Items with the one at `index` replaced by what `f` makes of it. Items that are missing in front of
it are null.
-/
def modifyItem (index : Nat) (f : Value → Value) (items : List Value) : List Value :=
  (items ++ List.replicate (index + 1 - items.length) null).modify index f

/--
The name by which an entry is known: names differ in more than their case.
-/
def entryName (name : String) : String := String.ofList (Text.lower name.toList)

mutual

/--
Put `value` over `old`: a table is put over a table entry by entry, and anything else replaces what
was there. An empty table replaces nothing. Tables inside a list keep the names of their entries.
-/
def mergeOver (value old : Value) : Value :=
  match value with
  | table [] =>
    match old with
    | null => table []
    | old => old
  | table (entry :: entries) => table (mergeEntries (entry :: entries) old.entries)
  | value => value
  termination_by sizeOf value

def mergeEntries (entries old : List (String × Value)) : List (String × Value) :=
  match entries with
  | [] => old
  | (key, value) :: entries =>
    let name := entryName key
    mergeEntries entries (modifyEntry name (fun previous => mergeOver value previous) old)
  termination_by sizeOf entries

end

end Value

inductive Step where
  | key (name : String)
  | index (position : Int)
  deriving DecidableEq, Repr

structure Path where
  first : String
  rest : List Step := []
  deriving DecidableEq, Repr

namespace Path

/--
A position counted from the front or, if it is negative, from the back.
-/
def resolveIndex (position : Int) (length : Nat) : Nat :=
  if position < 0 then length - position.natAbs else position.toNat

def putAt (value : Value) : List Step → Value → Value
  | [], old => value.mergeOver old
  | .key name :: rest, old => .table (old.entries |> Value.modifyEntry name (putAt value rest))
  | [.index position], old =>
    .list (old.items |> Value.modifyItem (resolveIndex position old.items.length) fun _ => value)
  | .index position :: rest, old =>
    .list (old.items |>
      Value.modifyItem (resolveIndex position old.items.length) (putAt value rest))

def put (path : Path) (value : Value) (root : Value) : Value :=
  putAt value (.key path.first :: path.rest) root

def isNameChar (c : Char) : Bool := c.isAlphanum || c == ' ' || c == '_' || c == '-'

/--
A position: digits, possibly behind a minus sign, between blanks. It fits into 64 bits.
-/
def position? (cs : List Char) : Option Int :=
  let isBlank := fun (c : Char) => c == ' ' || c == '\t'
  let word := ((cs.dropWhile isBlank).reverse.dropWhile isBlank).reverse
  let number := match word with
    | '-' :: digits => (number? digits).map fun n => -(n : Int)
    | digits => (number? digits).map Int.ofNat
  number.filter fun n => Int64.minValue.toInt ≤ n && n ≤ Int64.maxValue.toInt
where
  number? (digits : List Char) : Option Nat :=
    if digits.isEmpty || !digits.all Char.isDigit then
      none
    else
      some (digits.foldl (fun n c => n * 10 + (c.toNat - '0'.toNat)) 0)

def readSteps (cs : List Char) : Option (List Step) :=
  match cs with
  | [] => some []
  | '.' :: cs =>
    let name := cs.takeWhile isNameChar
    if name.isEmpty then
      none
    else
      have := (List.dropWhile_suffix isNameChar (l := cs)).length_le
      (readSteps (cs.dropWhile isNameChar)).map (.key (String.ofList name) :: ·)
  | '[' :: cs =>
    match _h : cs.dropWhile (· != ']') with
    | [] => none
    | _ :: behind =>
      have := (List.dropWhile_suffix (· != ']') (l := cs)).length_le
      match position? (cs.takeWhile (· != ']')) with
      | some position => (readSteps behind).map (.index position :: ·)
      | none => none
  | _ => none
  termination_by cs.length
  decreasing_by
    all_goals simp_all only [List.length_cons]
    all_goals omega

/--
Read a path. A text that is no path is a name as it stands.
-/
def ofText (text : String) : Path :=
  let cs := text.toList
  let first := cs.takeWhile isNameChar
  match first, readSteps (cs.dropWhile isNameChar) with
  | _ :: _, some rest => ⟨String.ofList first, rest⟩
  | _, _ => ⟨text, []⟩

end Path

end Zeroconf.Settings
