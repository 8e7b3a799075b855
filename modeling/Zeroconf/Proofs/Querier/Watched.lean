import Zeroconf.Querier

/-!
This module contains peers whose calls are written down, and what a querier calls them for.
-/

namespace Zeroconf

inductive Peer.Call where
  | ask (query : Message) (sink : Sink)
  | announce (message : Message) (known : Bool)
  | register (sink : Sink)
  | setTimeout (timeout : Nat)
  | close
  deriving DecidableEq

/--
A peer with the calls that it got so far, the latest one last.
-/
structure Watched (P : Type) where
  peer : P
  calls : List Peer.Call := []

namespace Watched

variable {P : Type}

/--
The peer is `later` after one more call.
-/
def add (watched : Watched P) (call : Peer.Call) (later : P) : Watched P :=
  ⟨later, watched.calls ++ [call]⟩

instance [Peer P] : Peer (Watched P) where
  name watched := Peer.name watched.peer
  ask watched now query sink :=
    let (later, reaction) := Peer.ask watched.peer now query sink
    (watched.add (.ask query sink) later, reaction)
  setTimeout watched timeout :=
    watched.add (.setTimeout timeout) (Peer.setTimeout watched.peer timeout)
  close watched := watched.add .close (Peer.close watched.peer)

instance [GroupPeer P] : GroupPeer (Watched P) where
  announce watched message known :=
    let (later, announcement) := GroupPeer.announce watched.peer message known
    (watched.add (.announce message known) later, announcement)
  register watched sink :=
    let (later, result) := GroupPeer.register watched.peer sink
    (watched.add (.register sink) later, result)

/--
Whether each of the peers got the same calls, and no others.
-/
def Called (peers later : List (Watched P)) (calls : List Peer.Call) : Prop :=
  later.map (·.calls) = (peers.map (·.calls)).map (· ++ calls)

variable {peers between later : List (Watched P)} {calls others : List Peer.Call}

theorem Called.refl (peers : List (Watched P)) : Called peers peers [] := by
  simp [Called]

theorem Called.trans (h : Called peers between calls) (h' : Called between later others) :
    Called peers later (calls ++ others) := by
  rw [Called, h', h, List.map_map]
  simp only [Function.comp_def, List.append_assoc]

theorem Called.cons {peer other : Watched P} (h : Called peers later calls)
    (hfirst : other.calls = peer.calls ++ calls) :
    Called (peer :: peers) (other :: later) calls := by
  rw [Called, List.map_cons, List.map_cons, List.map_cons, hfirst, h]

theorem Called.length_eq (h : Called peers later calls) : later.length = peers.length := by
  have hlength := congrArg List.length h
  simpa using hlength

theorem Called.exists_of_mem (h : Called peers later calls) {peer : Watched P}
    (hmem : peer ∈ later) : ∃ earlier ∈ peers, peer.calls = earlier.calls ++ calls := by
  have hcalls := List.mem_map_of_mem (f := (·.calls)) hmem
  rw [h] at hcalls
  simpa [eq_comm] using hcalls

end Watched

namespace Querier

open Watched

variable {P U : Type}

theorem called_enlist [GroupPeer P] {sink : Sink} {peers later : List (Watched P)}
    (h : enlist sink peers = (later, .ok ())) : Called peers later [.register sink] := by
  induction peers generalizing later with
  | nil =>
    cases h
    rfl
  | cons peer peers ih =>
    have hcalls : (GroupPeer.register peer sink).1.calls = peer.calls ++ [.register sink] := rfl
    unfold enlist at h
    split at h
    . next registered hregister =>
      rw [Prod.mk.injEq] at h
      rw [hregister] at hcalls
      rw [← h.1]
      exact (ih (Prod.ext rfl h.2)).cons hcalls
    . simp at h

theorem called_askAll [Peer P] (query : Message) (sink : Sink)
    (conclude : Except Error UInt16 → Reception → Reception) (peers : List (Watched P))
    (reception : Reception) :
    Called peers (askAll query sink conclude peers reception).1 [.ask query sink] := by
  induction peers generalizing reception with
  | nil => rfl
  | cons peer peers ih => exact (ih _).cons rfl

theorem called_announceAll [GroupPeer P] (message : Message) (known : Bool)
    (peers : List (Watched P)) (reception : Reception) :
    Called peers (announceAll message known peers reception).1 [.announce message known] := by
  induction peers generalizing reception with
  | nil => rfl
  | cons peer peers ih => exact (ih _).cons rfl

theorem called_setTimeout [Peer P] (timeout : Nat) (peers : List (Watched P)) :
    Called peers (peers.map (Peer.setTimeout · timeout)) [.setTimeout timeout] := by
  rw [Called, List.map_map, List.map_map]
  rfl

theorem called_closeAll [Peer P] (peers : List (Watched P)) (reception : Reception) :
    Called peers (closeAll peers reception).1 [.close] := by
  induction peers generalizing reception with
  | nil => rfl
  | cons peer peers ih => exact (ih _).cons rfl

/--
What is done with a querier, or happens to its reception.
-/
inductive Operation where
  | resolve (query : Message) (caller : Option Observer)
  | answer (number : Nat)
  | send (query : Message)
  | sendAsync (query : Message) (caller : Observer)
  | broadcast (message : Message) (known : Bool)
  | register (listener : Observer)
  | unregister (listener : Observer)
  | setTimeout (timeout : Nat)
  /-- Somebody reports to a sink that he was given at some time. -/
  | report (sink : Sink) (report : Report)
  /-- The time passes until a limit. -/
  | pass (limit : Nat)
  | close
  deriving DecidableEq

def withReception (querier : Querier P U) (reception : Reception) : Querier P U :=
  { querier with reception }

def operate [GroupPeer P] [Peer U] (querier : Querier P U) : Operation → Querier P U
  | .resolve query caller => (querier.resolve query caller).2
  | .answer number => (querier.answer number).2
  | .send query => (querier.send query).2
  | .sendAsync query caller => (querier.sendAsync query caller).2
  | .broadcast message known => (querier.broadcast message known).2
  | .register listener => (querier.register listener).2
  | .unregister listener => (querier.unregister listener).2
  | .setTimeout timeout => querier.setTimeout timeout
  | .report sink report => querier.withReception (querier.reception.deliver sink report).2
  | .pass limit => querier.withReception (querier.reception.advance limit fun _ => false)
  | .close => querier.close

def run [GroupPeer P] [Peer U] (querier : Querier P U) (operations : List Operation) :
    Querier P U :=
  operations.foldl operate querier

section Unwatched

def unwatched (querier : Querier (Watched P) (Watched U)) : Querier P U :=
  { querier with
    multicast := querier.multicast.map (·.peer)
    nameservers := querier.nameservers.map (·.peer) }

theorem closed_unwatched (querier : Querier (Watched P) (Watched U)) :
    querier.unwatched.closed = querier.closed := by
  rfl

theorem askAll_unwatched [Peer P] (query : Message) (sink : Sink)
    (conclude : Except Error UInt16 → Reception → Reception) (peers : List (Watched P))
    (reception : Reception) :
    askAll query sink conclude (peers.map (·.peer)) reception
      =
    ((askAll query sink conclude peers reception).1.map (·.peer),
      (askAll query sink conclude peers reception).2) := by
  induction peers generalizing reception with
  | nil => rfl
  | cons peer peers ih =>
    simp only [List.map_cons, askAll, ih]
    rfl

theorem announceAll_unwatched [GroupPeer P] (message : Message) (known : Bool)
    (peers : List (Watched P)) (reception : Reception) :
    announceAll message known (peers.map (·.peer)) reception
      =
    ((announceAll message known peers reception).1.map (·.peer),
      (announceAll message known peers reception).2) := by
  induction peers generalizing reception with
  | nil => rfl
  | cons peer peers ih =>
    simp only [List.map_cons, announceAll, ih]
    rfl

theorem closeAll_unwatched [Peer P] (peers : List (Watched P)) (reception : Reception) :
    closeAll (peers.map (·.peer)) reception
      =
    ((closeAll peers reception).1.map (·.peer), (closeAll peers reception).2) := by
  induction peers generalizing reception with
  | nil => rfl
  | cons peer peers ih =>
    simp only [List.map_cons, closeAll, ih]
    rfl

theorem start_unwatched [Peer P] [Peer U] (querier : Querier (Watched P) (Watched U))
    (number : Nat) : querier.unwatched.start number = (querier.start number).unwatched := by
  unfold start
  simp only [unwatched]
  cases querier.reception.cases[number]? with
  | none => rfl
  | some case =>
    dsimp only
    split
    . simp only [List.length_map, askAll_unwatched]
      cases Inquiry.selectsMulticast case.inquiry.query querier.multicast.length with
      | false => cases Inquiry.selectsUnicast case.inquiry.query querier.nameservers.length <;> rfl
      | true => cases Inquiry.selectsUnicast case.inquiry.query querier.nameservers.length <;> rfl
    . rfl

theorem resolve_unwatched [Peer P] [Peer U] (querier : Querier (Watched P) (Watched U))
    (query : Message) (caller : Option Observer) :
    querier.unwatched.resolve query caller
      =
    ((querier.resolve query caller).1, (querier.resolve query caller).2.unwatched) := by
  simp only [resolve, closed_unwatched]
  split
  . rfl
  . exact congrArg (Prod.mk _) (start_unwatched { querier with reception := _ } _)

theorem send_unwatched [Peer P] [Peer U] (querier : Querier (Watched P) (Watched U))
    (query : Message) :
    querier.unwatched.send query
      =
    ((querier.send query).1, (querier.send query).2.unwatched) := by
  unfold send
  rw [resolve_unwatched]
  rcases querier.resolve query none with ⟨result, later⟩
  cases result with
  | ok number => rfl
  | error error => rfl

theorem sendAsync_unwatched [Peer P] [Peer U] (querier : Querier (Watched P) (Watched U))
    (query : Message) (caller : Observer) :
    querier.unwatched.sendAsync query caller
      =
    ((querier.sendAsync query caller).1, (querier.sendAsync query caller).2.unwatched) := by
  unfold sendAsync
  rw [resolve_unwatched]
  rcases querier.resolve query (some caller) with ⟨result, later⟩
  cases result with
  | ok number => rfl
  | error error => rfl

theorem broadcast_unwatched [GroupPeer P] [Peer U] (querier : Querier (Watched P) (Watched U))
    (message : Message) (known : Bool) :
    querier.unwatched.broadcast message known
      =
    ((querier.broadcast message known).1, (querier.broadcast message known).2.unwatched) := by
  simp only [broadcast, closed_unwatched]
  split
  . rfl
  . simp only [unwatched, announceAll_unwatched, askAll_unwatched]

theorem setTimeout_unwatched [Peer P] [Peer U] (querier : Querier (Watched P) (Watched U))
    (timeout : Nat) :
    querier.unwatched.setTimeout timeout = (querier.setTimeout timeout).unwatched := by
  simp only [setTimeout, unwatched, List.map_map]
  rfl

theorem close_unwatched [Peer P] [Peer U] (querier : Querier (Watched P) (Watched U)) :
    querier.unwatched.close = querier.close.unwatched := by
  simp only [close, closed_unwatched]
  split
  . rfl
  . simp only [unwatched, closeAll_unwatched, withObservers]

theorem register_unwatched (querier : Querier (Watched P) (Watched U)) (listener : Observer) :
    querier.unwatched.register listener
      =
    ((querier.register listener).1, (querier.register listener).2.unwatched) := by
  unfold register
  simp only [unwatched]
  cases querier.reception.observers.register listener <;> rfl

/--
It makes no difference to a querier whether its peers are watched.
-/
theorem operate_unwatched [GroupPeer P] [Peer U] (querier : Querier (Watched P) (Watched U))
    (operation : Operation) :
    querier.unwatched.operate operation = (querier.operate operation).unwatched := by
  cases operation with
  | resolve query caller => exact congrArg Prod.snd (resolve_unwatched querier query caller)
  | send query => exact congrArg Prod.snd (send_unwatched querier query)
  | sendAsync query caller => exact congrArg Prod.snd (sendAsync_unwatched querier query caller)
  | broadcast message known => exact congrArg Prod.snd (broadcast_unwatched querier message known)
  | register listener => exact congrArg Prod.snd (register_unwatched querier listener)
  | setTimeout timeout => exact setTimeout_unwatched querier timeout
  | close => exact close_unwatched querier
  | _ => rfl

theorem run_unwatched [GroupPeer P] [Peer U] (querier : Querier (Watched P) (Watched U))
    (operations : List Operation) :
    querier.unwatched.run operations = (querier.run operations).unwatched := by
  induction operations generalizing querier with
  | nil => rfl
  | cons operation operations ih =>
    simp only [run, List.foldl_cons, operate_unwatched]
    exact ih (querier.operate operation)

theorem enlist_unwatched [GroupPeer P] (sink : Sink) (peers : List (Watched P)) :
    enlist sink (peers.map (·.peer))
      =
    ((enlist sink peers).1.map (·.peer), (enlist sink peers).2) := by
  induction peers with
  | nil => rfl
  | cons peer peers ih =>
    have hregister : GroupPeer.register peer sink
        = (peer.add (.register sink) (GroupPeer.register peer.peer sink).1,
          (GroupPeer.register peer.peer sink).2) := by
      rfl
    simp only [List.map_cons, enlist, ih, hregister]
    rcases GroupPeer.register peer.peer sink with ⟨registered, result⟩
    cases result with
    | ok => rfl
    | error error => rfl

theorem assemble_unwatched [GroupPeer P] {multicast : List (Watched P)}
    {nameservers : List (Watched U)} {responseWait timeout : Nat}
    {querier : Querier (Watched P) (Watched U)}
    (h : assemble multicast nameservers responseWait timeout = .ok querier) :
    assemble (multicast.map (·.peer)) (nameservers.map (·.peer)) responseWait timeout
      =
    .ok querier.unwatched := by
  unfold assemble at h ⊢
  rw [List.isEmpty_map, List.isEmpty_map, enlist_unwatched]
  split at h
  . contradiction
  . next hsome =>
    rw [if_neg hsome]
    split at h
    . next henlist =>
      cases h
      rw [henlist]
      rfl
    . contradiction

end Unwatched

end Querier

end Zeroconf
