import Zeroconf.Peer

/-!
This module contains responders that act by a script: they react to every question in the same way
and keep a record of what they were asked.
-/

namespace Zeroconf

/--
A reply in a script. It is given for the request with the number `id`, or else for the number of
the query.
-/
structure Script.Line where
  id : Option UInt16 := none
  reply : Reply
  deriving DecidableEq, Repr

structure Script where
  /-- What it replies before it takes a question. -/
  immediate : List Script.Line := []
  /-- What it replies later, with the milliseconds until then. -/
  delayed : List (Nat × Script.Line) := []
  /-- Why it takes no question and no announcement. -/
  refusal : Option Error := none
  /-- The number under which it takes a question, or else that of the query. -/
  requestId : Option UInt16 := none
  /-- Why it takes no listener. -/
  listenerRefusal : Option Error := none
  deriving DecidableEq, Repr

def Script.Line.report (line : Script.Line) (query : UInt16) : Report :=
  ⟨line.id.getD query, line.reply⟩

structure Scripted where
  name : String
  script : Script
  queries : List Message := []
  /-- The messages announced, each with the flag that tells whether to send its answers. -/
  announcements : List (Message × Bool) := []
  listeners : List Sink := []
  timeout : Nat := 0
  closed : Bool := false
  /-- The number of the latest query and the sink for its replies. -/
  latest : Option (UInt16 × Sink) := none
  deriving DecidableEq, Repr

namespace Scripted

def ask (peer : Scripted) (query : Message) (sink : Sink) : Scripted × Reaction :=
  let { immediate, delayed, refusal, requestId, .. } := peer.script
  let verdict :=
    match refusal with
    | some error => .error error
    | none => .ok (requestId.getD query.id)
  ({ peer with queries := peer.queries ++ [query], latest := some (query.id, sink) },
    { reports := immediate.map (·.report query.id)
      later := delayed.map fun (delay, line) => (delay, line.report query.id)
      verdict })

def announce (peer : Scripted) (message : Message) (known : Bool) : Scripted × Announcement :=
  match peer.script.refusal with
  | some error => (peer, { verdict := .error error })
  | none =>
    ({ peer with announcements := peer.announcements ++ [(message, known)] }, { verdict := .ok () })

def register (peer : Scripted) (sink : Sink) : Scripted × Except Error Unit :=
  match peer.script.listenerRefusal with
  | some error => (peer, .error error)
  | none => ({ peer with listeners := peer.listeners ++ [sink] }, .ok ())

end Scripted

instance : GroupPeer Scripted where
  name peer := peer.name
  ask peer _ query sink := peer.ask query sink
  setTimeout peer timeout := { peer with timeout }
  close peer := { peer with closed := true }
  announce peer message known := peer.announce message known
  register peer sink := peer.register sink

end Zeroconf
