import Zeroconf.Command.Run
import Zeroconf.Nameserver.ResolvConf

/-!
This module contains the program `dnssd-query`. It reads files and environment variables, runs the
command, and prints what the command presents. It has no sockets, so that its host is isolated.
-/

namespace Zeroconf.Command

def readFile? (path : String) : IO (Option String) := do
  try
    return some (← IO.FS.readFile path)
  catch _ =>
    return none

def environment : IO (List (String × String)) := do
  let mut found := []
  for name in Settings.variableNames do
    if let some value ← IO.getEnv name then
      found := found ++ [(name, value)]
  return found

/--
The surroundings of the program; the file is the only one that the command may want to read.
-/
def surroundings (path : Option String) : IO Surroundings := do
  let file ← path.mapM readFile?
  let system ← readFile? "/etc/resolv.conf"
  return {
    host := .isolated
    content := fun wanted => if path == some wanted then file.join else none
    environment := ← environment
    nameservers := Nameserver.ofText (fun _ => none) (system.getD "")
    ids := ⟨(← IO.monoMsNow).toUInt16, 0⟩ }

def program (arguments : List String) : IO UInt32 := do
  let path := (Arguments.ofList arguments).toOption.bind (·.config)
  let result := run (← surroundings path) arguments
  for line in result.lines do
    IO.println line
  return result.exitCode.toUInt32

end Zeroconf.Command

def main (arguments : List String) : IO UInt32 := Zeroconf.Command.program arguments
