import Mathlib.Data.List.Nodup
import Zeroconf.Proofs.Machine
import Zeroconf.Proofs.Transport.Dispatch
import Zeroconf.Proofs.Transport.Frame
import Zeroconf.Transport.Connections

/-!
This module contains the intake of a processor that listens for streams. Somebody opens streams,
bytes arrive on them in pieces of any size, and they come to an end, in any order. What is handed to
the workers for a stream are the frames that the stream has carried, each of them once.
-/

namespace Zeroconf.Transport

namespace Connections

namespace Attempt

def bytes : Attempt → List UInt8
  | chunk first others => first :: others
  | _ => []

def goesOn : Attempt → Bool
  | chunk _ _ => true
  | interrupted => true
  | _ => false

def isEnd : Attempt → Bool
  | ended => true
  | failed => true
  | _ => false

end Attempt

def bytesOf (attempts : List Attempt) : List UInt8 :=
  (attempts.takeWhile Attempt.goesOn).flatMap Attempt.bytes

def isOver (attempts : List Attempt) : Bool :=
  (attempts.dropWhile Attempt.goesOn).head?.any Attempt.isEnd

theorem gather_eq (buffer : List UInt8) (attempts : List Attempt) :
    gather buffer attempts = (buffer ++ bytesOf attempts, isOver attempts) := by
  induction attempts generalizing buffer with
  | nil => simp [gather, bytesOf, isOver]
  | cons attempt attempts ih =>
    cases attempt with
    | chunk first others =>
      rw [gather, ih]
      simp [bytesOf, isOver, List.takeWhile_cons, List.dropWhile_cons, Attempt.goesOn,
        Attempt.bytes]
    | interrupted =>
      rw [gather, ih]
      simp [bytesOf, isOver, List.takeWhile_cons, List.dropWhile_cons, Attempt.goesOn,
        Attempt.bytes]
    | nothing =>
      simp [gather, bytesOf, isOver, Attempt.goesOn, Attempt.isEnd]
    | ended =>
      simp [gather, bytesOf, isOver, Attempt.goesOn, Attempt.isEnd]
    | failed =>
      simp [gather, bytesOf, isOver, Attempt.goesOn, Attempt.isEnd]

theorem poll_eq (connections : Connections) (number : Nat) (attempts : List Attempt) :
    connections.poll number attempts
      =
    connections.read number (bytesOf attempts) (isOver attempts) := by
  rw [poll, gather_eq, List.nil_append]

theorem read_of_forall_ne {connections : Connections} {number : Nat}
    (h : ∀ connection ∈ connections.live, connection.number ≠ number) (bytes : List UInt8)
    (ended : Bool) : connections.read number bytes ended = { connections } := by
  have hnone : connections.live.find? (·.number == number) = none := by
    rw [List.find?_eq_none]
    intro connection hmem
    simpa using h connection hmem
  rw [read, hnone]

end Connections

open Connections (Attempt bytesOf isOver)
open Work (networkOf)

namespace Connections

theorem read_of_find {connections : Connections} {number : Nat} {connection : Connection}
    (h : connections.live.find? (·.number == number) = some connection) (bytes : List UInt8)
    (ended : Bool) :
    connections.read number bytes ended
      =
    let (frames, buffer) := Frame.drain (connection.buffer ++ bytes)
    let received := frames.map (connection.source, ·)
    if ended then
      let left := { connections with live := connections.live.filter (·.number != number) }
      { connections := left, received, samples := endSamples buffer ++ [left.gauge] }
    else
      let keep := fun (c : Connection) => if c.number == number then { c with buffer } else c
      { connections := { connections with live := connections.live.map keep }, received } := by
  rw [read, h]

end Connections

structure Intake.Stream where
  number : Nat
  source : SocketAddress
  /-- All that has arrived on the stream. -/
  bytes : List UInt8 := []
  ended : Bool := false
  deriving DecidableEq, Repr

structure Intake (τ : Type) where
  processor : Processor
  connections : Connections := {}
  crew : Option (Work.Crew τ)
  now : Nat
  /-- How many packets have arrived anywhere. -/
  arrived : UInt64 := 0
  /-- Whether the reader has given up all streams. -/
  stopped : Bool := false
  /-- All streams that were accepted, those that have ended included. -/
  streams : List Intake.Stream := []
  /-- The packets that were handed to the workers, each behind the number of its stream. -/
  packets : List (Nat × Packet) := []
  /-- What was measured, behind the number of the stream that gave rise to it. -/
  samples : List (Option Nat × Sample) := []

namespace Intake

inductive Act (τ : Type) where
  | accept (source : SocketAddress)
  | turnAway
  /-- A stream is ready and is read. -/
  | read (number : Nat) (attempts : List Attempt)
  | pass (span : Nat)
  /-- Packets arrive at other processors. -/
  | elsewhere (packets : UInt64)
  /-- Those who do the work go on with it, or they are gone. -/
  | work (crew : Option (Work.Crew τ))
  | close
  /-- The reader sees that the processor is closed. -/
  | leave

variable {τ : Type}

def Enabled (intake : Intake τ) : Act τ → Prop
  | .accept _ => intake.stopped = false
  | .turnAway => intake.stopped = false
  -- Nothing comes from a stream that is not open.
  | .read number attempts => intake.stopped = false ∧
    (attempts = [] ∨ ∃ stream ∈ intake.streams, stream.number = number ∧ stream.ended = false)
  | .leave => intake.stopped = false ∧ intake.processor.closed = true
  | _ => True

instance (intake : Intake τ) (act : Act τ) : Decidable (intake.Enabled act) := by
  cases act <;> unfold Enabled <;> infer_instance

def Stream.extend (number : Nat) (attempts : List Attempt) (stream : Stream) : Stream :=
  if stream.number = number ∧ stream.ended = false then
    { stream with bytes := stream.bytes ++ bytesOf attempts, ended := isOver attempts }
  else
    stream

def next (handle : Packet → τ) (intake : Intake τ) : Act τ → Intake τ
  | .accept source =>
    let number := intake.connections.nextNumber
    let { connections, samples, .. } := intake.connections.accept source
    { intake with
      connections
      streams := intake.streams ++ [{ number, source }]
      samples := intake.samples ++ samples.map (some number, ·) }
  | .turnAway => { intake with connections := intake.connections.turnAway }
  | .read number attempts =>
    let { connections, received, samples } := intake.connections.poll number attempts
    let (packets, arrived) := Packet.receiveAll intake.now intake.arrived received
    let change := Processor.dispatchAll handle packets intake.processor intake.crew
    { intake with
      processor := change.processor
      connections
      crew := change.crew
      arrived
      streams := intake.streams.map (·.extend number attempts)
      packets := intake.packets ++ packets.map (number, ·)
      samples := intake.samples ++ (change.samples ++ samples).map (some number, ·) }
  | .pass span => { intake with now := intake.now + span }
  | .elsewhere packets => { intake with arrived := intake.arrived + packets }
  | .work crew => { intake with crew }
  | .close =>
    let { processor, crew, .. } := intake.processor.close intake.crew
    { intake with processor, crew }
  | .leave =>
    let { connections, samples, .. } := intake.connections.closeAll
    { intake with
      connections
      stopped := true
      samples := intake.samples ++ samples.map (none, ·) }

def machine (handle : Packet → τ) : Machine (Intake τ) (Act τ) := ⟨Enabled, next handle⟩

instance (handle : Packet → τ) (intake : Intake τ) (act : Act τ) :
    Decidable ((machine handle).Enabled intake act) :=
  inferInstanceAs (Decidable (intake.Enabled act))

def initial (processor : Processor) (crew : Option (Work.Crew τ)) (now : Nat) : Intake τ :=
  { processor, crew, now }

def Act.bytesFor (number : Nat) : Act τ → List UInt8
  | .read other attempts => if other = number then bytesOf attempts else []
  | _ => []

def bytesOn (intake : Intake τ) (number : Nat) : List UInt8 :=
  (intake.streams.filter (·.number == number)).flatMap (·.bytes)

def contentOf (intake : Intake τ) (number : Nat) : List (SocketAddress × List UInt8) :=
  (intake.packets.filter (·.1 == number)).map (·.2.content)

def truncations (intake : Intake τ) (number : Nat) : Nat :=
  intake.samples.count (some number, Sample.truncated)

def gauge? (intake : Intake τ) : Option Sample :=
  ((intake.samples.map (·.2)).filter Sample.countsConnections).getLast?

/--
The streams that are open. None is as soon as the reader has left.
-/
def openStreams (intake : Intake τ) : List Stream :=
  if intake.stopped then [] else intake.streams.filter (!·.ended)

namespace Stream

def connection? (stream : Stream) : Option Connection :=
  if stream.ended then none
  else some ⟨stream.number, stream.source, (Frame.drain stream.bytes).2⟩

variable {stream : Stream} {number : Nat} {attempts : List Attempt}

theorem number_extend (number : Nat) (attempts : List Attempt) (stream : Stream) :
    (stream.extend number attempts).number = stream.number := by
  unfold extend
  split <;> rfl

theorem source_extend (number : Nat) (attempts : List Attempt) (stream : Stream) :
    (stream.extend number attempts).source = stream.source := by
  unfold extend
  split <;> rfl

theorem extend_of_ne (h : stream.number ≠ number) (attempts : List Attempt) :
    stream.extend number attempts = stream := by
  rw [extend, if_neg fun hboth => h hboth.1]

theorem extend_of_ended (h : stream.ended = true) (number : Nat) (attempts : List Attempt) :
    stream.extend number attempts = stream := by
  rw [extend, if_neg fun hboth => by simp [h] at hboth]

@[simp]
theorem extend_nil (number : Nat) (stream : Stream) : stream.extend number [] = stream := by
  unfold extend
  split
  . next h => simp [bytesOf, isOver, h.2.symm]
  . rfl

theorem extend_of_open (h : stream.ended = false) (attempts : List Attempt) :
    stream.extend stream.number attempts
      =
    { stream with bytes := stream.bytes ++ bytesOf attempts, ended := isOver attempts } := by
  rw [extend, if_pos ⟨rfl, h⟩]

end Stream

theorem count_map_some (number other : Nat) (samples : List Sample) (sample : Sample) :
    (samples.map (some number, ·)).count (some other, sample)
      =
    if number = other then samples.count sample else 0 := by
  induction samples with
  | nil => simp
  | cons first samples ih =>
    rw [List.map_cons, List.count_cons, List.count_cons, ih]
    split
    . next heq => simp [heq]
    . next hne => simp [hne]

theorem endSamples_eq (buffer : List UInt8) :
    Connections.endSamples buffer = if buffer = [] then [] else [Sample.truncated] := by
  cases buffer <;> rfl

theorem count_truncated_endSamples (buffer : List UInt8) (number : Nat) :
    (Connections.endSamples buffer ++ [Sample.openConnections number]).count Sample.truncated
      =
    if buffer = [] then 0 else 1 := by
  have hne := Sample.openConnections_ne_truncated number
  rw [endSamples_eq]
  split <;> simp [hne]

/--
Whether all is in order: each stream has a number of its own, the reader has of each open stream
what is left behind its last frame, what was handed over for each stream are its frames, and what
was measured agrees.
-/
structure Intact (intake : Intake τ) : Prop where
  nodup : (intake.streams.map (·.number)).Nodup
  number_lt : ∀ stream ∈ intake.streams, stream.number < intake.connections.nextNumber
  live : intake.connections.live
    = if intake.stopped then [] else intake.streams.filterMap Stream.connection?
  packets : ∀ entry ∈ intake.packets, ∃ stream ∈ intake.streams, stream.number = entry.1
  samples : ∀ entry ∈ intake.samples, ∀ number ∈ entry.1, number < intake.connections.nextNumber
  content : ∀ stream ∈ intake.streams,
    intake.contentOf stream.number = (Frame.drain stream.bytes).1.map (stream.source, ·)
  truncations : ∀ stream ∈ intake.streams, intake.truncations stream.number
    = if stream.ended = true ∧ (Frame.drain stream.bytes).2 ≠ [] then 1 else 0
  gauge : intake.gauge? = none ∧ intake.connections.live = [] ∨
    intake.gauge? = some (Sample.openConnections intake.connections.live.length)

theorem intact_initial (processor : Processor) (crew : Option (Work.Crew τ)) (now : Nat) :
    (initial processor crew now).Intact := by
  constructor <;> simp [initial, gauge?]

namespace Intact

variable {intake : Intake τ}

theorem eq_of_number_eq (h : intake.Intact) {a b : Stream} (ha : a ∈ intake.streams)
    (hb : b ∈ intake.streams) (heq : a.number = b.number) : a = b :=
  List.inj_on_of_nodup_map h.nodup ha hb heq

theorem mem_live_iff (h : intake.Intact) (hrunning : intake.stopped = false)
    {connection : Connection} :
    connection ∈ intake.connections.live
      ↔
    ∃ stream ∈ intake.streams, stream.ended = false ∧
      connection = ⟨stream.number, stream.source, (Frame.drain stream.bytes).2⟩ := by
  rw [h.live, if_neg (by simp [hrunning]), List.mem_filterMap]
  constructor
  . rintro ⟨stream, hmem, hsome⟩
    unfold Stream.connection? at hsome
    split at hsome
    . contradiction
    . next hended =>
      injection hsome with hsome
      exact ⟨stream, hmem, by simpa using hended, hsome.symm⟩
  . rintro ⟨stream, hmem, hended, rfl⟩
    exact ⟨stream, hmem, by simp [Stream.connection?, hended]⟩

theorem find_live (h : intake.Intact) (hrunning : intake.stopped = false) {stream : Stream}
    (hmem : stream ∈ intake.streams) (hended : stream.ended = false) :
    intake.connections.live.find? (·.number == stream.number)
      =
    some ⟨stream.number, stream.source, (Frame.drain stream.bytes).2⟩ := by
  have hlive := (h.mem_live_iff hrunning).mpr ⟨stream, hmem, hended, rfl⟩
  have hsome : (intake.connections.live.find? (·.number == stream.number)).isSome := by
    rw [List.find?_isSome]
    exact ⟨_, hlive, by simp⟩
  rcases Option.isSome_iff_exists.mp hsome with ⟨connection, hfind⟩
  have hnumber := List.find?_some hfind
  rcases (h.mem_live_iff hrunning).mp (List.mem_of_find?_eq_some hfind) with ⟨other, hother, -, rfl⟩
  rw [hfind, h.eq_of_number_eq hother hmem (by simpa using hnumber)]

theorem contentOf_of_le (h : intake.Intact) {number : Nat}
    (hnumber : intake.connections.nextNumber ≤ number) : intake.contentOf number = [] := by
  have hnone : intake.packets.filter (·.1 == number) = [] := by
    rw [List.filter_eq_nil_iff]
    intro entry hmem
    rcases h.packets entry hmem with ⟨stream, hstream, heq⟩
    have := h.number_lt stream hstream
    simp only [beq_iff_eq]
    omega
  rw [contentOf, hnone, List.map_nil]

theorem truncations_of_le (h : intake.Intact) {number : Nat}
    (hnumber : intake.connections.nextNumber ≤ number) : intake.truncations number = 0 := by
  rw [Intake.truncations, List.count_eq_zero]
  intro hmem
  have := h.samples _ hmem number rfl
  omega

theorem accept (h : intake.Intact) (hrunning : intake.stopped = false) (handle : Packet → τ)
    (source : SocketAddress) : (intake.next handle (.accept source)).Intact := by
  have hdrain : Frame.drain [] = ([], []) := by simp [Frame.drain]
  have hlive := h.live
  have hne := Sample.openConnections_ne_truncated (intake.connections.live.length + 1)
  simp only [hrunning, Bool.false_eq_true, if_false] at hlive
  simp only [Intake.next, Connections.accept, Connections.gauge, List.length_append,
    List.length_singleton]
  exact {
    nodup := by
      rw [List.map_append, List.nodup_append]
      refine ⟨h.nodup, by simp, ?_⟩
      intro number hmem other hother
      rcases List.mem_map.mp hmem with ⟨stream, hstream, rfl⟩
      have := h.number_lt stream hstream
      simp only [List.map_cons, List.map_nil, List.mem_singleton] at hother
      omega
    number_lt := by
      intro stream hmem
      rcases List.mem_append.mp hmem with hmem | hmem
      . exact Nat.lt_succ_of_lt (h.number_lt stream hmem)
      . rw [List.mem_singleton.mp hmem]
        exact Nat.lt_succ_self _
    live := by
      simp only [hrunning, Bool.false_eq_true, if_false, hlive, List.filterMap_append]
      simp [Stream.connection?, hdrain]
    packets := by
      intro entry hmem
      rcases h.packets entry hmem with ⟨stream, hstream, heq⟩
      exact ⟨stream, List.mem_append_left _ hstream, heq⟩
    samples := by
      intro entry hmem number hnumber
      rcases List.mem_append.mp hmem with hmem | hmem
      . exact Nat.lt_succ_of_lt (h.samples entry hmem number hnumber)
      . simp only [List.map_cons, List.map_nil, List.mem_singleton] at hmem
        subst hmem
        rw [← Option.some_inj.mp hnumber]
        exact Nat.lt_succ_self _
    content := by
      intro stream hmem
      rcases List.mem_append.mp hmem with hmem | hmem
      . exact h.content stream hmem
      . -- The number is new, so that nothing can stand behind it yet.
        rw [List.mem_singleton.mp hmem, hdrain]
        exact h.contentOf_of_le (Nat.le_refl _)
    truncations := by
      intro stream hmem
      have hcount : [(some intake.connections.nextNumber,
          Sample.openConnections (intake.connections.live.length + 1))].count
            (some stream.number, Sample.truncated) = 0 := by
        simp [List.count_eq_zero, Ne.symm hne]
      simp only [Intake.truncations, List.count_append, List.map_cons, List.map_nil, hcount,
        Nat.add_zero]
      rcases List.mem_append.mp hmem with hmem | hmem
      . exact h.truncations stream hmem
      . rw [List.mem_singleton.mp hmem, hdrain]
        simpa [Intake.truncations] using h.truncations_of_le (Nat.le_refl _)
    gauge := by
      right
      simp [gauge?, Sample.countsConnections_openConnections] }

theorem map_extend_of_forall (number : Nat) (attempts : List Attempt)
    (hended : ∀ stream ∈ intake.streams, stream.number = number → stream.ended = true) :
    intake.streams.map (·.extend number attempts) = intake.streams := by
  have hid : intake.streams.map (·.extend number attempts) = intake.streams.map id := by
    apply List.map_congr_left
    intro stream hmem
    by_cases hnumber : stream.number = number
    . exact Stream.extend_of_ended (hended stream hmem hnumber) number attempts
    . exact Stream.extend_of_ne hnumber attempts
  rw [hid, List.map_id]

theorem read_of_forall (h : intake.Intact) (hrunning : intake.stopped = false) (handle : Packet → τ)
    {number : Nat} (attempts : List Attempt)
    (hended : ∀ stream ∈ intake.streams, stream.number = number → stream.ended = true) :
    intake.next handle (.read number attempts) = intake := by
  have hread : intake.connections.poll number attempts = { connections := intake.connections } := by
    rw [Connections.poll_eq]
    apply Connections.read_of_forall_ne
    intro connection hmem heq
    rcases (h.mem_live_iff hrunning).mp hmem with ⟨stream, hstream, hopen, rfl⟩
    have := hended stream hstream heq
    simp [hopen] at this
  simp only [Intake.next, hread, Packet.receiveAll, Processor.dispatchAll,
    map_extend_of_forall number attempts hended]
  simp

theorem live_read (h : intake.Intact) (hrunning : intake.stopped = false) {stream : Stream}
    (hmem : stream ∈ intake.streams) (hended : stream.ended = false) (attempts : List Attempt) :
    (intake.connections.poll stream.number attempts).connections.live
      =
    (intake.streams.map (·.extend stream.number attempts)).filterMap Stream.connection? := by
  have hlive := h.live
  simp only [hrunning, Bool.false_eq_true, if_false] at hlive
  rw [Connections.poll_eq, Connections.read_of_find (h.find_live hrunning hmem hended),
    List.filterMap_map]
  cases hisOver : isOver attempts with
  | true =>
    simp only [if_true, hlive, List.filter_filterMap]
    apply List.filterMap_congr
    intro other hother
    by_cases hnumber : other.number = stream.number
    . rw [h.eq_of_number_eq hother hmem hnumber, Function.comp_apply,
        Stream.extend_of_open hended attempts]
      simp [Stream.connection?, hended, hisOver]
    . rw [Function.comp_apply, Stream.extend_of_ne hnumber]
      unfold Stream.connection?
      split <;> simp [hnumber]
  | false =>
    simp only [Bool.false_eq_true, if_false, hlive, List.map_filterMap]
    apply List.filterMap_congr
    intro other hother
    by_cases hnumber : other.number = stream.number
    . rw [h.eq_of_number_eq hother hmem hnumber, Function.comp_apply,
        Stream.extend_of_open hended attempts]
      simp [Stream.connection?, hended, hisOver, Frame.drain_append_bytes stream.bytes]
    . rw [Function.comp_apply, Stream.extend_of_ne hnumber]
      unfold Stream.connection?
      split <;> simp [hnumber]

theorem received_read (h : intake.Intact) (hrunning : intake.stopped = false) {stream : Stream}
    (hmem : stream ∈ intake.streams) (hended : stream.ended = false) (attempts : List Attempt) :
    (intake.connections.poll stream.number attempts).received
      =
    (Frame.drain ((Frame.drain stream.bytes).2 ++ bytesOf attempts)).1.map (stream.source, ·) := by
  rw [Connections.poll_eq, Connections.read_of_find (h.find_live hrunning hmem hended)]
  dsimp only
  split <;> rfl

theorem samples_read (h : intake.Intact) (hrunning : intake.stopped = false) {stream : Stream}
    (hmem : stream ∈ intake.streams) (hended : stream.ended = false) (attempts : List Attempt) :
    let { connections, samples, .. } := intake.connections.poll stream.number attempts
    samples
      =
    if isOver attempts then
      Connections.endSamples (Frame.drain ((Frame.drain stream.bytes).2 ++ bytesOf attempts)).2 ++
        [connections.gauge]
    else
      [] := by
  rw [Connections.poll_eq, Connections.read_of_find (h.find_live hrunning hmem hended)]
  dsimp only
  split <;> rfl

theorem length_live_read (connections : Connections) (number : Nat) (attempts : List Attempt)
    (hisOver : isOver attempts = false) :
    (connections.poll number attempts).connections.live.length = connections.live.length := by
  rw [Connections.poll_eq, hisOver, Connections.read]
  split
  . rfl
  . simp

theorem nextNumber_read (connections : Connections) (number : Nat) (attempts : List Attempt) :
    (connections.poll number attempts).connections.nextNumber = connections.nextNumber := by
  rw [Connections.poll_eq, Connections.read]
  split
  . rfl
  . dsimp only
    split <;> rfl

theorem contentOf_read (h : intake.Intact) (hrunning : intake.stopped = false)
    (handle : Packet → τ) {stream : Stream} (hmem : stream ∈ intake.streams)
    (hended : stream.ended = false) (attempts : List Attempt) (number : Nat) :
    (intake.next handle (.read stream.number attempts)).contentOf number
      =
    intake.contentOf number ++
      if stream.number = number then
        (Frame.drain ((Frame.drain stream.bytes).2 ++ bytesOf attempts)).1.map (stream.source, ·)
      else
        [] := by
  rw [← h.received_read hrunning hmem hended attempts,
    ← Packet.content_receiveAll intake.now intake.arrived (Connections.poll ..).received]
  simp only [contentOf, Intake.next, List.filter_append, List.map_append]
  split
  . next heq => simp [List.filter_map, Function.comp_def, heq]
  . next hne => simp [List.filter_map, Function.comp_def, hne]

theorem truncations_read (h : intake.Intact) (hrunning : intake.stopped = false)
    (handle : Packet → τ) {stream : Stream} (hmem : stream ∈ intake.streams)
    (hended : stream.ended = false) (attempts : List Attempt) (number : Nat) :
    (intake.next handle (.read stream.number attempts)).truncations number
      =
    intake.truncations number +
      if stream.number = number ∧ isOver attempts = true ∧
          (Frame.drain ((Frame.drain stream.bytes).2 ++ bytesOf attempts)).2 ≠ [] then
        1
      else
        0 := by
  simp only [Intake.truncations, Intake.next, List.count_append, count_map_some,
    h.samples_read hrunning hmem hended attempts]
  rw [Sample.count_truncated_of_plain (Processor.plain_dispatchAll _ _ _ _)]
  by_cases hnumber : stream.number = number
  . cases isOver attempts with
    | true =>
      simp only [hnumber, if_true, Connections.gauge, count_truncated_endSamples]
      split <;> simp_all
    | false => simp [hnumber]
  . simp [hnumber]

theorem gauge?_read (h : intake.Intact) (hrunning : intake.stopped = false)
    (handle : Packet → τ) {stream : Stream} (hmem : stream ∈ intake.streams)
    (hended : stream.ended = false) (attempts : List Attempt) :
    let later := intake.next handle (.read stream.number attempts)
    later.gauge?
      =
    if isOver attempts then
      some (Sample.openConnections later.connections.live.length)
    else
      intake.gauge? := by
  simp only [gauge?, Intake.next, List.map_append, List.filter_append, List.map_map,
    Function.comp_def, List.map_id', h.samples_read hrunning hmem hended attempts]
  rw [Sample.filter_countsConnections_of_plain (Processor.plain_dispatchAll _ _ _ _), List.nil_append]
  split
  . simp [Connections.gauge, Sample.countsConnections_openConnections]
  . simp

theorem read_of_mem (h : intake.Intact) (hrunning : intake.stopped = false) (handle : Packet → τ)
    {stream : Stream} (hmem : stream ∈ intake.streams) (hended : stream.ended = false)
    (attempts : List Attempt) : (intake.next handle (.read stream.number attempts)).Intact := by
  have hextended : ∀ other ∈ intake.streams, other.number = stream.number →
      other.extend stream.number attempts
        =
      { stream with bytes := stream.bytes ++ bytesOf attempts, ended := isOver attempts } := by
    intro other hother heq
    rw [h.eq_of_number_eq hother hmem heq, Stream.extend_of_open hended]
  have hnumber : (intake.next handle (.read stream.number attempts)).connections.nextNumber
      = intake.connections.nextNumber :=
    nextNumber_read intake.connections stream.number attempts
  exact {
    nodup := by
      simpa [Intake.next, Function.comp_def, Stream.number_extend] using h.nodup
    number_lt := by
      rw [Intake.next, List.forall_mem_map]
      intro other hother
      rw [Stream.number_extend, nextNumber_read]
      exact h.number_lt other hother
    live := by
      rw [if_neg (by simp [Intake.next, hrunning])]
      exact h.live_read hrunning hmem hended attempts
    packets := by
      intro entry hentry
      have hfrom : ∃ other ∈ intake.streams, other.number = entry.1 := by
        rcases List.mem_append.mp hentry with hentry | hentry
        . exact h.packets entry hentry
        . rcases List.mem_map.mp hentry with ⟨packet, -, rfl⟩
          exact ⟨stream, hmem, rfl⟩
      rcases hfrom with ⟨other, hother, heq⟩
      exact ⟨_, List.mem_map_of_mem hother, by rw [Stream.number_extend, heq]⟩
    samples := by
      rw [hnumber]
      intro entry hentry number heq
      rcases List.mem_append.mp hentry with hentry | hentry
      . exact h.samples entry hentry number heq
      . rcases List.mem_map.mp hentry with ⟨sample, -, rfl⟩
        rw [← Option.some_inj.mp heq]
        exact h.number_lt stream hmem
    content := by
      intro later hlater
      rcases List.mem_map.mp hlater with ⟨other, hother, rfl⟩
      rw [Stream.number_extend, Stream.source_extend, h.contentOf_read hrunning handle hmem hended,
        h.content other hother]
      by_cases heq : other.number = stream.number
      . rw [hextended other hother heq, h.eq_of_number_eq hother hmem heq, if_pos rfl]
        simp [Frame.drain_append_bytes stream.bytes]
      . rw [Stream.extend_of_ne heq, if_neg (Ne.symm heq), List.append_nil]
    truncations := by
      intro later hlater
      rcases List.mem_map.mp hlater with ⟨other, hother, rfl⟩
      rw [Stream.number_extend, h.truncations_read hrunning handle hmem hended,
        h.truncations other hother]
      by_cases heq : other.number = stream.number
      . -- As long as the stream is open nothing of it was given up.
        rw [hextended other hother heq, h.eq_of_number_eq hother hmem heq]
        simp [hended, Frame.drain_append_bytes stream.bytes]
      . have hne : stream.number ≠ other.number := Ne.symm heq
        rw [Stream.extend_of_ne heq]
        simp [hne]
    gauge := by
      rw [h.gauge?_read hrunning handle hmem hended]
      cases hisOver : isOver attempts with
      | true => exact .inr rfl
      | false =>
        -- A stream that goes on is counted as before.
        have hlength := length_live_read intake.connections stream.number attempts hisOver
        simp only [Intake.next, Bool.false_eq_true, if_false]
        rw [← List.length_eq_zero_iff, hlength, List.length_eq_zero_iff]
        exact h.gauge }

theorem read (h : intake.Intact) (hrunning : intake.stopped = false) (handle : Packet → τ)
    (number : Nat) (attempts : List Attempt) :
    (intake.next handle (.read number attempts)).Intact := by
  -- A stream that is not open has nothing to read.
  by_cases hopen : ∃ stream ∈ intake.streams, stream.number = number ∧ stream.ended = false
  . rcases hopen with ⟨stream, hmem, rfl, hended⟩
    exact h.read_of_mem hrunning handle hmem hended attempts
  . rw [h.read_of_forall hrunning handle attempts]
    . exact h
    . intro stream hmem hnumber
      rw [← Bool.not_eq_false]
      exact fun hended => hopen ⟨stream, hmem, hnumber, hended⟩

theorem leave (h : intake.Intact) (handle : Packet → τ) : (intake.next handle .leave).Intact := by
  simp only [Intake.next, Connections.closeAll, Connections.gauge]
  refine { h with live := ?_, samples := ?_, truncations := ?_, gauge := ?_ }
  . simp
  . intro entry hmem number hnumber
    rcases List.mem_append.mp hmem with hmem | hmem
    . exact h.samples entry hmem number hnumber
    . simp only [List.map_cons, List.map_nil, List.mem_singleton] at hmem
      subst hmem
      contradiction
  . intro stream hmem
    rw [← h.truncations stream hmem]
    simp [Intake.truncations, List.count_append]
  . right
    simp [gauge?, Sample.countsConnections_openConnections]

theorem next (h : intake.Intact) (handle : Packet → τ) {act : Act τ}
    (henabled : intake.Enabled act) : (intake.next handle act).Intact := by
  cases act with
  | accept source => exact h.accept henabled handle source
  | turnAway =>
    exact { h with
      number_lt := fun stream hmem => Nat.lt_succ_of_lt (h.number_lt stream hmem)
      samples := fun entry hmem number hnumber =>
        Nat.lt_succ_of_lt (h.samples entry hmem number hnumber) }
  | read number attempts => exact h.read henabled.1 handle number attempts
  | leave => exact h.leave handle
  | _ => exact { h with }

theorem length_live (h : intake.Intact) :
    intake.connections.live.length = intake.openStreams.length := by
  rw [h.live, openStreams]
  split
  . rfl
  . induction intake.streams with
    | nil => rfl
    | cons stream streams ih =>
      rw [List.filterMap_cons, List.filter_cons]
      cases hended : stream.ended with
      | true => simpa [Stream.connection?, hended] using ih
      | false => simpa [Stream.connection?, hended] using ih

theorem filter_number (h : intake.Intact) {stream : Stream} (hmem : stream ∈ intake.streams) :
    intake.streams.filter (·.number == stream.number) = [stream] := by
  have hsame : intake.streams.filter (·.number == stream.number)
      = intake.streams.filter (· == stream) := by
    apply List.filter_congr
    intro other hother
    rw [Bool.eq_iff_iff, beq_iff_eq, beq_iff_eq]
    constructor
    . exact h.eq_of_number_eq hother hmem
    . intro heq
      rw [heq]
  rw [hsame, List.filter_beq, List.count_eq_one_of_mem h.nodup.of_map hmem, List.replicate_one]

theorem bytesOn_of_mem (h : intake.Intact) {stream : Stream} (hmem : stream ∈ intake.streams) :
    intake.bytesOn stream.number = stream.bytes := by
  rw [bytesOn, h.filter_number hmem]
  simp

theorem bytesOn_read (h : intake.Intact) {stream : Stream} (hmem : stream ∈ intake.streams)
    (hended : stream.ended = false) (attempts : List Attempt) (number : Nat) :
    ((intake.streams.map (·.extend stream.number attempts)).filter
        (·.number == number)).flatMap (·.bytes)
      =
    intake.bytesOn number ++ if stream.number = number then bytesOf attempts else [] := by
  simp only [List.filter_map, Function.comp_def, Stream.number_extend, List.flatMap_map]
  by_cases hnumber : stream.number = number
  . subst hnumber
    simp [bytesOn, h.filter_number hmem, Stream.extend_of_open hended]
  . rw [if_neg hnumber, List.append_nil, bytesOn]
    apply List.flatMap_congr
    intro other hother
    have heq := eq_of_beq (List.mem_filter.mp hother).2
    rw [Stream.extend_of_ne (by rw [heq]; exact Ne.symm hnumber)]

theorem bytesOn_next (h : intake.Intact) (handle : Packet → τ) {act : Act τ}
    (henabled : intake.Enabled act) (number : Nat) :
    (intake.next handle act).bytesOn number = intake.bytesOn number ++ act.bytesFor number := by
  cases act with
  | accept source => simp [Intake.next, bytesOn, Act.bytesFor, List.filter_append, List.filter_cons]
  | read other attempts =>
    rcases henabled with ⟨-, rfl | ⟨stream, hmem, rfl, hended⟩⟩
    . simp [Intake.next, bytesOn, Act.bytesFor, bytesOf]
    . exact h.bytesOn_read hmem hended attempts number
  | _ => simp [Intake.next, bytesOn, Act.bytesFor]

end Intact

/--
Whether a task is submitted in an act for each packet that it puts on record, in their order, and no
other. Workers put none on record; what else they do is their business.
-/
def Submits (handle : Packet → τ) (intake : Intake τ) (act : Act τ) : Prop :=
  ∃ fresh : List (Nat × Packet),
    (intake.next handle act).packets = intake.packets ++ fresh ∧
    match act with
    | .work _ => fresh = []
    | _ =>
      networkOf (intake.next handle act).crew
        =
      (networkOf intake.crew).map (·.submitAll (fresh.map (handle ·.2)))

theorem submits_next (handle : Packet → τ) (intake : Intake τ) (act : Act τ) :
    intake.Submits handle act := by
  have hnothing (crew : Option (Work.Crew τ)) :
      networkOf crew = (networkOf crew).map (·.submitAll []) := by
    cases crew <;> rfl
  cases act with
  | read number attempts =>
    refine ⟨_, rfl, ?_⟩
    dsimp only
    rw [List.map_map]
    exact Processor.network_dispatchAll handle _ intake.processor intake.crew
  | close =>
    refine ⟨[], (List.append_nil _).symm, ?_⟩
    exact (Processor.network_close intake.processor intake.crew).trans (hnothing intake.crew)
  | work crew => exact ⟨[], (List.append_nil _).symm, rfl⟩
  | _ => exact ⟨[], (List.append_nil _).symm, hnothing intake.crew⟩

/--
Whoever opens streams and sends bytes in whichever pieces and in whichever order, and whatever the
workers do meanwhile: for each stream exactly the frames that it has carried are handed over, in
their order and with its sender, and nothing else is; to be handed over is to be submitted as a
task. What is left behind the last frame is never handed over, and if the stream ends with it this
is measured once. The last measurement of the number of streams that are open is right, if there is
one, and until then there is no stream.
-/
theorem streams_demultiplexed (handle : Packet → τ) (processor : Processor)
    (crew : Option (Work.Crew τ)) (now : Nat) (acts : List (Act τ))
    (hadmits : (machine handle).Admits (initial processor crew now) acts) :
    let intake := (machine handle).follow (initial processor crew now) acts
    let count := intake.openStreams.length
    (machine handle).Throughout (Submits handle) (initial processor crew now) acts ∧
    (intake.streams.map (·.number)).Nodup ∧
    (∀ stream ∈ intake.streams, stream.bytes = acts.flatMap (·.bytesFor stream.number)) ∧
    (∀ stream ∈ intake.streams, ∃ frames rest, Frame.Splits stream.bytes frames rest ∧
      intake.contentOf stream.number = frames.map (stream.source, ·) ∧
      intake.truncations stream.number = if stream.ended = true ∧ rest ≠ [] then 1 else 0) ∧
    (∀ entry ∈ intake.packets, ∃ stream ∈ intake.streams, stream.number = entry.1) ∧
    intake.connections.live.length = count ∧
    (intake.gauge? = none ∧ count = 0 ∨
      intake.gauge? = some (Sample.openConnections count) ∧
        (count < 2 ^ Sample.precision → (Sample.openConnections count).value = count)) := by
  intro intake count
  have hall : intake.Intact ∧ ∀ number, acts.flatMap (·.bytesFor number) = intake.bytesOn number :=
    Machine.run_induction
      (P := fun acts later =>
        later.Intact ∧ ∀ number, acts.flatMap (·.bytesFor number) = later.bytesOn number)
      ⟨intact_initial processor crew now, fun _ => rfl⟩
      (by
        intro acts act _ h henabled
        refine ⟨h.1.next handle henabled, fun number => ?_⟩
        rw [List.flatMap_append, List.flatMap_singleton, h.2 number]
        exact (h.1.bytesOn_next handle henabled number).symm)
      hadmits
  rcases hall with ⟨hintact, hbytes⟩
  refine ⟨fun front act _ _ => submits_next handle _ act, hintact.nodup, ?_, ?_, hintact.packets,
    hintact.length_live, ?_⟩
  . intro stream hmem
    rw [hbytes, hintact.bytesOn_of_mem hmem]
  . intro stream hmem
    exact ⟨_, _, Frame.splits_drain stream.bytes, hintact.content stream hmem,
      hintact.truncations stream hmem⟩
  . simp only [count, ← hintact.length_live, List.length_eq_zero_iff]
    exact hintact.gauge.imp_right fun hgauge => ⟨hgauge, Sample.value_openConnections⟩

/--
Two streams from the same sender are open at once and bring a frame each, which is cut within its
length and within its message. One ends in the midst of its second frame, the other behind a frame.
-/
theorem streams_demultiplexed_interleaved :
    let source : SocketAddress := .v4 ⟨127, 0, 0, 1⟩ 5353
    let crew : Option (Work.Crew Packet) := some (.start {})
    let acts : List (Act Packet) :=
      [.accept source, .turnAway, .accept source, .read 0 [.chunk 0 [], .nothing],
        .read 2 [.chunk 0 [2, 8], .interrupted, .chunk 9 []], .work crew,
        .read 0 [.chunk 1 [7, 0], .chunk 3 [1, 1], .ended], .read 2 [.failed]]
    let processor : Processor := { channel := .unicast, address := source }
    let intake := (machine id).follow (initial processor crew 0) acts
    (machine id).Admits (initial processor crew 0) acts ∧
    intake.contentOf 0 = [(source, [7])] ∧ intake.truncations 0 = 1 ∧
    intake.contentOf 2 = [(source, [8, 9])] ∧ intake.truncations 2 = 0 ∧
    ∀ sample, intake.gauge? = some sample → sample.value = 0 := by
  intro source crew acts processor intake
  have hadmits : (machine id).Admits (initial processor crew 0) acts := by decide
  have hstreams : intake.streams
      = [⟨0, source, [0, 1, 7, 0, 3, 1, 1], true⟩, ⟨2, source, [0, 2, 8, 9], true⟩] := by
    decide
  have hfirst : Frame.drain [0, 1, 7, 0, 3, 1, 1] = ([[7]], [0, 3, 1, 1]) := by
    simp [Frame.drain, Frame.length]
  have hsecond : Frame.drain [0, 2, 8, 9] = ([[8, 9]], []) := by simp [Frame.drain, Frame.length]
  have hone : ⟨0, source, [0, 1, 7, 0, 3, 1, 1], true⟩ ∈ intake.streams := by simp [hstreams]
  have htwo : ⟨2, source, [0, 2, 8, 9], true⟩ ∈ intake.streams := by simp [hstreams]
  have hopen : intake.openStreams.length = 0 := by
    rw [openStreams, hstreams]
    decide
  rcases streams_demultiplexed id processor crew 0 acts hadmits with
    ⟨-, -, -, hframes, -, -, hgauge⟩
  rcases hframes _ hone with ⟨frames, rest, hsplits, hcontent, htruncations⟩
  rcases hframes _ htwo with ⟨others, left, hothers, hcontents, hcomplete⟩
  rw [Frame.splits_iff, hfirst, Prod.mk.injEq] at hsplits
  rw [Frame.splits_iff, hsecond, Prod.mk.injEq] at hothers
  rcases hsplits with ⟨rfl, rfl⟩
  rcases hothers with ⟨rfl, rfl⟩
  refine ⟨hadmits, hcontent, htruncations, hcontents, hcomplete, ?_⟩
  intro sample hsample
  rcases hgauge with ⟨hnone, -⟩ | ⟨hsome, hvalue⟩
  . rw [hsample] at hnone
    exact absurd hnone (Option.some_ne_none sample)
  . rw [hsample, Option.some_inj] at hsome
    rw [hsome, hvalue (by rw [hopen]; decide), hopen]

end Intake

end Zeroconf.Transport
