import Zeroconf.Text.Decimal

/-!
This module contains the arguments of the command: which of them are options, what values these
have, and what is left as the name and the record type.
-/

namespace Zeroconf.Command

inductive Flag where
  | config
  | timeout
  | browse
  | help
  | version
  deriving DecidableEq, Repr

namespace Flag

def longNames : List (String × Flag) :=
  [("config", config), ("timeout-ms", timeout), ("browse", browse), ("help", help),
    ("version", version)]

def shortNames : List (Char × Flag) :=
  [('c', config), ('t', timeout), ('b', browse), ('h', help), ('V', version)]

def hasValue : Flag → Bool
  | config | timeout => true
  | browse | help | version => false

end Flag

structure Arguments where
  config : Option String := none
  /-- The overall timeout in milliseconds, if it is not that of the settings. -/
  timeout : Option Nat := none
  /-- Whether to list the instances of a service. -/
  browse : Bool := false
  name : String
  recordType : String := "A"
  deriving DecidableEq, Repr

/--
Why the command does not do what its arguments say.
-/
inductive Interruption where
  /-- The arguments make no sense. -/
  | misuse
  | help
  | version
  deriving DecidableEq, Repr

namespace Arguments

/--
The arguments that have been read, the name and the record type in the order in which they came.
-/
structure Partial where
  config : Option String := none
  timeout : Option Nat := none
  browse : Bool := false
  positional : List String := []
  deriving DecidableEq, Repr

namespace Partial

def takePlain (given : Partial) (text : String) : Except Interruption Partial :=
  if given.positional.length < 2 then
    .ok { given with positional := given.positional ++ [text] }
  else
    .error .misuse

def takeFlag (given : Partial) : Flag → Except Interruption Partial
  | .help => .error .help
  | .version => .error .version
  | .browse => if given.browse then .error .misuse else .ok { given with browse := true }
  | .config | .timeout => .error .misuse

/--
Read a number of milliseconds below 2⁶⁴.
-/
def milliseconds? (text : String) : Option Nat :=
  let digits :=
    match text.toList with
    | '+' :: digits => digits
    | digits => digits
  (Text.Decimal.nat? digits).filter (· < UInt64.size)

/--
Take an option with its value. No option may be given twice.
-/
def takeValue (given : Partial) (flag : Flag) (text : String) : Except Interruption Partial :=
  match flag with
  | .config =>
    if given.config.isSome || text.isEmpty then .error .misuse
    else .ok { given with config := some text }
  | .timeout =>
    match given.timeout, milliseconds? text with
    | none, some timeout => .ok { given with timeout := some timeout }
    | _, _ => .error .misuse
  | _ => .error .misuse

/--
What there is at the end of the arguments. To list instances goes with no record type.
-/
def finish (given : Partial) : Except Interruption Arguments :=
  let { config, timeout, browse, positional } := given
  match positional with
  | [name] => .ok { config, timeout, browse, name }
  | [name, recordType] =>
    if browse then .error .misuse else .ok { config, timeout, browse, name, recordType }
  | _ => .error .misuse

end Partial

/--
Take a long option that stands behind two hyphens. The result may be an option whose value is the
next argument.
-/
def readLong (given : Partial) (cs : List Char) :
    Except Interruption (Partial × Option Flag) :=
  let name := cs.takeWhile (· != '=')
  match Flag.longNames.lookup (String.ofList name), cs.drop name.length with
  | none, _ => .error .misuse
  | some flag, [] =>
    if flag.hasValue then .ok (given, some flag)
    else (given.takeFlag flag).map fun given => (given, none)
  | some flag, _ :: value =>
    (given.takeValue flag (String.ofList value)).map fun given => (given, none)

/--
Take the short options that stand behind one hyphen. The first one with a value takes what is behind
it, if there is anything.
-/
def readShort (given : Partial) : List Char → Except Interruption (Partial × Option Flag)
  | [] => .ok (given, none)
  | c :: cs =>
    match Flag.shortNames.lookup c with
    | none => .error .misuse
    | some flag =>
      if flag.hasValue then
        match cs with
        | [] => .ok (given, some flag)
        | '=' :: value =>
          (given.takeValue flag (String.ofList value)).map fun given => (given, none)
        | value => (given.takeValue flag (String.ofList value)).map fun given => (given, none)
      else do
        readShort (← given.takeFlag flag) cs

/--
Whether an argument begins like an option. A lone hyphen does not.
-/
def looksLikeOption (cs : List Char) : Bool := cs.head? == some '-' && cs != ['-']

/--
Read arguments from the left to the right. The first one that is not as it should be decides, as
does the first one that asks for help or for the version.
-/
def readAll (given : Partial) (arguments : List String) : Except Interruption Partial :=
  match arguments with
  | [] => .ok given
  | argument :: rest =>
    match argument.toList with
    | ['-', '-'] => rest.foldlM Partial.takePlain given
    | '-' :: '-' :: cs => afterOption (readLong given cs) rest
    | '-' :: c :: cs => afterOption (readShort given (c :: cs)) rest
    | _ => do readAll (← given.takePlain argument) rest
  termination_by (arguments.length, 0)
where
  /-- Go on behind an option, whose value may be the next argument. -/
  afterOption (result : Except Interruption (Partial × Option Flag)) (rest : List String) :
      Except Interruption Partial :=
    match result, rest with
    | .error interruption, _ => .error interruption
    | .ok (given, none), rest => readAll given rest
    | .ok (given, some flag), value :: rest =>
      if looksLikeOption value.toList then .error .misuse
      else do readAll (← given.takeValue flag value) rest
    | .ok (_, some _), [] => .error .misuse
  termination_by (rest.length, 1)

def ofList (arguments : List String) : Except Interruption Arguments := do
  (← readAll {} arguments).finish

end Arguments

def helpText : List String :=
  ["Query multicast DNS and unicast nameservers and print the merged answer",
    "",
    "Usage: dnssd-query [OPTIONS] <NAME> [RECORD_TYPE]",
    "",
    "Arguments:",
    "  <NAME>         Name to query, e.g. `printer.local.` or `_ipp._tcp.local.`",
    "  [RECORD_TYPE]  Record type [default: A]",
    "",
    "Options:",
    "  -c, --config <CONFIG>          Path to configuration file (TOML)",
    "  -t, --timeout-ms <TIMEOUT_MS>  Override the overall timeout, in milliseconds",
    "  -b, --browse                   Treat NAME as a service type and list its instances",
    "  -h, --help                     Print help",
    "  -V, --version                  Print version"]

def versionText : List String := ["dnssd-query 0.1.0"]

end Zeroconf.Command
