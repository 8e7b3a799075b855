import Zeroconf.Settings.Toml.Datetime
import Zeroconf.Settings.Value

/-!
This module contains TOML documents while they are read: the tables that have been written so far,
together with the way in which each of them came into being, as that decides what may be added to
them. The entries of a table stand in the order in which they were written.
-/

namespace Zeroconf.Settings.Toml

/--
How a table came into being.
-/
inductive Origin where
  /-- It was written out. -/
  | written
  /-- A table inside it was written out. -/
  | implied
  /-- A key with dots leads through it. -/
  | dotted
  deriving DecidableEq, Repr

inductive Node where
  /-- A value that nothing can be added to. -/
  | leaf (value : Value)
  /-- A date, a time or both. -/
  | date (text : String)
  | table (origin : Origin) (entries : List (String × Node))
  /-- A list of tables, each of which was written out. -/
  | tables (items : List (List (String × Node)))
  deriving Inhabited

abbrev Entries := List (String × Node)

def Entries.put (key : String) (node : Node) : Entries → Entries
  | [] => [(key, node)]
  | (k, n) :: entries =>
    if k == key then (key, node) :: entries else (k, n) :: Entries.put key node entries

/--
Change the table to which a path leads, with its origin. Tables that are missing on the way are
created. A key with dots must not lead through a table that was written out.
-/
def Entries.modifyAt (dotted : Bool) (f : Origin → Entries → Option Entries) (origin : Origin)
    (entries : Entries) : List String → Option Entries
  | [] => f origin entries
  | key :: path =>
    match entries.lookup key with
    | none => do
      let created := if dotted then Origin.dotted else .implied
      let inside ← Entries.modifyAt dotted f created [] path
      return entries.put key (.table created inside)
    | some (.leaf _) | some (.date _) => none
    | some (.table origin inside) => do
      if dotted && origin == .written then
        none
      let inside ← Entries.modifyAt dotted f origin inside path
      return entries.put key (.table origin inside)
    | some (.tables items) => do
      let last ← items.getLast?
      let inside ← Entries.modifyAt dotted f .written last path
      return entries.put key (.tables (items.dropLast ++ [inside]))

def Entries.addValue (key : List String) (value : Node) (entries : Entries) : Option Entries := do
  let last ← key.getLast?
  let path := key.dropLast
  let add := fun (origin : Origin) (inside : Entries) =>
    if (origin == .dotted) == path.isEmpty || (inside.lookup last).isSome then none
    else some (inside ++ [(last, value)])
  entries.modifyAt true add .written path

/--
Write out the table at a path. A table that was only implied so far may still be written out, and
then takes its place behind the other entries.
-/
def Entries.openTable (path : List String) (entries : Entries) : Option Entries := do
  let last ← path.getLast?
  let start := fun (_ : Origin) (inside : Entries) =>
    match inside.lookup last with
    | none => some (inside ++ [(last, .table .written [])])
    | some (.table .implied content) =>
      some (inside.filter (·.1 != last) ++ [(last, .table .written content)])
    | some _ => none
  entries.modifyAt false start .written path.dropLast

def Entries.openItem (path : List String) (entries : Entries) : Option Entries := do
  let last ← path.getLast?
  let start := fun (_ : Origin) (inside : Entries) =>
    match inside.lookup last with
    | none => some (inside ++ [(last, .tables [[]])])
    | some (.tables items) => some (inside.put last (.tables (items ++ [[]])))
    | some _ => none
  entries.modifyAt false start .written path.dropLast

/--
Change the table at a path that was written out before.
-/
def Entries.within (f : Entries → Option Entries) (entries : Entries) (path : List String) :
    Option Entries :=
  entries.modifyAt false (fun _ inside => f inside) .written path

/-- A table whose first entry has this name stands for the date that the entry spells. -/
def dateName : String := "$__toml_private_datetime"

/--
The date for which a table stands that starts with this entry, if it stands for one. The inner
option tells whether the entry spells a date.
-/
def dateOf? (entries : Entries) : Option (Option String) :=
  match entries with
  | (name, node) :: _ =>
    if name == dateName then
      match node with
      | .leaf (.string text) => some (datetimeOfText? text.toList)
      | _ => some none
    else
      none
  | [] => none

mutual

def Node.value? : Node → Option Value
  | .leaf value => some value
  | .date text => some (.string text)
  | .table _ entries => tableValue? entries
  | .tables items => (itemsValue? items).map .list

def tableValue? (entries : List (String × Node)) : Option Value :=
  match dateOf? entries with
  | some date => date.map .string
  | none => (entriesValue? entries).map .table

def entriesValue? : List (String × Node) → Option (List (String × Value))
  | [] => some []
  | (key, node) :: entries => do
    let value ← node.value?
    return (key, value) :: (← entriesValue? entries)

def itemsValue? : List (List (String × Node)) → Option (List Value)
  | [] => some []
  | entries :: items => do
    let value ← tableValue? entries
    return value :: (← itemsValue? items)

end

/--
A table that nothing more can be added to.
-/
def closed? (entries : Entries) : Option Node :=
  match dateOf? entries with
  | some date => date.map .date
  | none => (entriesValue? entries).map fun entries => .leaf (.table entries)

end Zeroconf.Settings.Toml
