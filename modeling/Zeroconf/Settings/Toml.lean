import Zeroconf.Settings.Toml.Document
import Zeroconf.Settings.Toml.Scalar

/-!
This module contains the reader of TOML, the format of configuration files. Readers that go into
nested values are bounded by fuel, of which the length of the text is always enough.
-/

namespace Zeroconf.Settings.Toml

/--
Read the end of a line: blanks, a comment, and the end of the line or of the text.
-/
def readLineEnd (cs : List Char) : Option (List Char) :=
  let endOf := fun (cs : List Char) => if cs.isEmpty then some [] else newline? cs
  match skipBlanks cs with
  | '#' :: cs =>
    let isEnd := fun (c : Char) => c == '\n' || c == '\r'
    if (cs.takeWhile (!isEnd ·)).all isPrintable then endOf (cs.dropWhile (!isEnd ·)) else none
  | cs => endOf cs

def skipLines (fuel : Nat) (cs : List Char) : List Char :=
  match fuel with
  | 0 => cs
  | fuel + 1 =>
    match skipBlanks cs with
    | [] => []
    | cs =>
      match readLineEnd cs with
      | some behind => skipLines fuel behind
      | none => cs

def isKeyChar (c : Char) : Bool := c.isAlphanum || c == '_' || c == '-'

def readName (fuel : Nat) (cs : List Char) : Option (String × List Char) :=
  match cs with
  | '"' :: cs => (readBasic fuel cs).map fun (name, cs) => (String.ofList name, cs)
  | '\'' :: cs => (readLiteral cs).map fun (name, cs) => (String.ofList name, cs)
  | cs =>
    let name := cs.takeWhile isKeyChar
    if name.isEmpty then none else some (String.ofList name, cs.dropWhile isKeyChar)

def readNames (fuel : Nat) (cs : List Char) : Option (List String × List Char) :=
  match fuel with
  | 0 => none
  | fuel + 1 => do
    let (name, cs) ← readName fuel (skipBlanks cs)
    match skipBlanks cs with
    | '.' :: cs =>
      let (names, cs) ← readNames fuel cs
      return (name :: names, cs)
    | cs => return ([name], cs)

/-- A key has fewer names than this, and lists and tables inside each other are fewer as well. -/
def depthLimit : Nat := 80

def readKey (fuel : Nat) (cs : List Char) : Option (List String × List Char) :=
  (readNames fuel cs).filter fun (names, _) => names.length < depthLimit

/--
Read a value that holds no other values.
-/
def readScalar (fuel : Nat) (cs : List Char) : Option (Node × List Char) :=
  match readString fuel cs with
  | some (text, cs) => some (.leaf (.string (String.ofList text)), cs)
  | none =>
    match readDatetime cs with
    | some (text, cs) => some (.date text, cs)
    | none => (readWord cs).map fun (value, cs) => (.leaf value, cs)

mutual

/--
Read a value that stands inside `depth` others.
-/
def readValue (fuel depth : Nat) (cs : List Char) : Option (Node × List Char) :=
  match fuel with
  | 0 => none
  | fuel + 1 =>
    match cs with
    | '[' :: cs =>
      if depth + 1 < depthLimit then
        (readItems fuel (depth + 1) cs).map fun (items, cs) => (.leaf (.list items), cs)
      else
        none
    | '\x7b' :: cs =>
      if depth + 1 < depthLimit then
        match skipBlanks cs with
        | '\x7d' :: cs => some (.leaf (.table []), cs)
        | cs => do
          let (entries, cs) ← readEntries fuel (depth + 1) [] cs
          return (← closed? entries, cs)
      else
        none
    | cs => readScalar fuel cs

def readItems (fuel depth : Nat) (cs : List Char) : Option (List Value × List Char) :=
  match fuel with
  | 0 => none
  | fuel + 1 =>
    match skipLines fuel cs with
    | ']' :: cs => some ([], cs)
    | cs => do
      let (item, cs) ← readValue fuel depth cs
      let value ← item.value?
      match skipLines fuel cs with
      | ',' :: cs =>
        let (items, cs) ← readItems fuel depth cs
        return (value :: items, cs)
      | ']' :: cs => return ([value], cs)
      | _ => none

def readEntries (fuel depth : Nat) (entries : Entries) (cs : List Char) :
    Option (Entries × List Char) :=
  match fuel with
  | 0 => none
  | fuel + 1 => do
    let (key, cs) ← readKey fuel cs
    let (value, cs) ← readValue fuel depth (skipBlanks (← expect '=' cs))
    let entries ← entries.addValue key value
    match skipBlanks cs with
    | ',' :: cs => readEntries fuel depth entries cs
    | '\x7d' :: cs => return (entries, cs)
    | _ => none

end

/--
Read the lines of a document. `path` leads to the table that is being written.
-/
def readDocument (fuel : Nat) (root : Entries) (path : List String) (cs : List Char) :
    Option Entries :=
  match fuel with
  | 0 => none
  | fuel + 1 =>
    match skipLines fuel cs with
    | [] => some root
    | '[' :: '[' :: cs => do
      let (key, cs) ← readKey fuel cs
      let cs ← readLineEnd (← expect ']' (← expect ']' cs))
      readDocument fuel (← root.openItem key) key cs
    | '[' :: cs => do
      let (key, cs) ← readKey fuel cs
      let cs ← readLineEnd (← expect ']' cs)
      readDocument fuel (← root.openTable key) key cs
    | cs => do
      let (key, cs) ← readKey fuel cs
      let cs ← expect '=' cs
      let (value, cs) ← readValue fuel 0 (skipBlanks cs)
      let root ← root.within (Entries.addValue key value) path
      readDocument fuel root path (← readLineEnd cs)

/--
The table that a document describes. A byte order mark in front of it is passed over.
-/
def parse? (text : String) : Option (List (String × Value)) :=
  let cs := if text.toList.head? == some '\uFEFF' then text.toList.drop 1 else text.toList
  match (readDocument (cs.length + 2) [] [] cs).bind tableValue? with
  | some (.table entries) => some entries
  | _ => none

end Zeroconf.Settings.Toml
