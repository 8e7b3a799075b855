import Zeroconf.Command.Arguments
import Zeroconf.Command.Presentation
import Zeroconf.Lookup
import Zeroconf.Settings.Load
import Zeroconf.Station

/-!
This module contains what the command does: it sends one query, or lists the instances of a service,
and presents the answer.
-/

namespace Zeroconf.Command

structure Result where
  exitCode : Nat
  lines : List String := []
  deriving DecidableEq, Repr

namespace Result

def success (lines : List String) : Result := ⟨0, lines⟩

def failure : Result := ⟨1, []⟩

def ofInterruption : Interruption → Result
  | .misuse => ⟨2, []⟩
  | .help => success helpText
  | .version => success versionText

end Result

structure Surroundings where
  host : Transport.Host
  /-- The content of the file at a path. -/
  content : String → Option String
  /-- The environment variables and their values. -/
  environment : List (String × String) := []
  /-- The nameservers of the system. -/
  nameservers : List SocketAddress := []
  ids : QueryIds

def query (arguments : Arguments) (ids : QueryIds) (querier : Querier Link Nameserver) : Result :=
  match RecordType.ofText? arguments.recordType, Name.ofHostText arguments.name with
  | some type, .ok name =>
    let (query, _) := Lookup.query name type ids
    match (querier.send query).1 with
    | .ok message => .success message.lines
    | .error _ => .failure
  | _, _ => .failure

def browse (arguments : Arguments) (ids : QueryIds) (querier : Querier Link Nameserver) : Result :=
  let lookup : Lookup (Querier Link Nameserver) := ⟨fun query querier => querier.send query⟩
  match (lookup.browse arguments.name (ids, querier)).1 with
  | .ok services => .success (Service.lines arguments.name services)
  | .error _ => .failure

def perform (surroundings : Surroundings) (arguments : Arguments) (settings : Settings) : Result :=
  let { host, nameservers, ids, .. } := surroundings
  match Station.create host settings nameservers () (some (.start settings.executors)) 0 with
  | .error _ => .failure
  | .ok { querier, .. } =>
    let querier :=
      match arguments.timeout with
      | some timeout => querier.setTimeout timeout
      | none => querier
    if arguments.browse then browse arguments ids querier else query arguments ids querier

def run (surroundings : Surroundings) (arguments : List String) : Result :=
  match Arguments.ofList arguments with
  | .error interruption => .ofInterruption interruption
  | .ok arguments =>
    let file := arguments.config.map surroundings.content
    match Settings.load file surroundings.environment with
    | .error _ => .failure
    | .ok settings => perform surroundings arguments settings

end Zeroconf.Command
