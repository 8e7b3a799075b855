import Zeroconf.Settings
import Zeroconf.Settings.Toml

/-!
This module contains the loading of settings: from a file, and from environment variables, which are
put over what the file says.
-/

namespace Zeroconf.Settings

/--
Put the entries of a file over a configuration. Their names are paths.
-/
def putFile (entries : List (String × Value)) (root : Value) : Value :=
  entries.foldl (fun root (name, value) =>
    (Path.ofText (Value.entryName name)).put value root) root

/--
The value of an environment variable: a truth value, a number, or else the text as it stands.
-/
def variableValue (text : String) : Value :=
  let cs := text.toList
  if Text.lower cs == "true".toList then .bool true
  else if Text.lower cs == "false".toList then .bool false
  else
    let fits := fun n => Int64.minValue.toInt ≤ n && n ≤ Int64.maxValue.toInt
    match (Text.Decimal.int? cs).filter fits with
    | some n => .int n
    | none =>
      match Text.Decimal.float? cs with
      | some x => .float x
      | none => .string text

def variableStart : List Char := "mdns__".toList

/--
A name with dots in the place of pairs of underscores.
-/
def dotted : List Char → List Char
  | '_' :: '_' :: cs => '.' :: dotted cs
  | c :: cs => c :: dotted cs
  | [] => []

def variablePath? (name : String) : Option Path :=
  let cs := Text.lower name.toList
  if variableStart.isPrefixOf cs then
    some (Path.ofText (String.ofList (dotted (cs.drop variableStart.length))))
  else
    none

def variableNames : List String :=
  let name := fun (keys : List String) =>
    String.ofList (("__".intercalate ("mdns" :: keys)).toList.map Char.toUpper)
  querierKeys.map (fun key => name ["querier", key]) ++
    networkKeys.map (fun key => name ["network", key]) ++
    executorKeys.flatMap (fun pool => poolKeys.map fun key => name ["executors", pool, key]) ++
    telemetryKeys.map (fun key => name ["telemetry", key])

def putEnvironment (environment : List (String × String)) (root : Value) : Value :=
  environment.foldl (fun root (name, text) =>
    match variablePath? name with
    | some path => path.put (variableValue text) root
    | none => root) root

inductive LoadFault where
  /-- The file does not exist, is no TOML, or holds a value that is of no use. -/
  | unreadable
  | invalid (error : Error)
  deriving DecidableEq, Repr

/--
Load the settings from the text of a file, if one was named, and from environment variables. The
outer option tells whether a file was named, the inner one whether it exists.
-/
def load (file : Option (Option String)) (environment : List (String × String)) :
    Except LoadFault Settings := do
  let root ← match file with
    | none => .ok (.table [])
    | some none => .error .unreadable
    | some (some text) =>
      match Toml.parse? text with
      | some entries => .ok (putFile entries (.table []))
      | none => .error .unreadable
  match read .lenient (putEnvironment environment root) with
  | none => .error .unreadable
  | some settings =>
    match settings.validate with
    | .ok () => .ok settings
    | .error error => .error (.invalid error)

end Zeroconf.Settings
