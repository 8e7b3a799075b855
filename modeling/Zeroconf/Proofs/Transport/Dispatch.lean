import Mathlib.Algebra.Ring.Nat
import Zeroconf.Transport.Processor

/-!
This module contains what the handing over of packets to the workers comes to: a task is submitted
for each of them, in order, and what is measured never looks like the end of a stream.
-/

namespace Zeroconf

namespace Packet

def content (packet : Packet) : SocketAddress × List UInt8 := (packet.source, packet.payload)

theorem content_receiveAll (now : Nat) (arrived : UInt64)
    (contents : List (SocketAddress × List UInt8)) :
    (receiveAll now arrived contents).1.map content = contents := by
  induction contents generalizing arrived with
  | nil => rfl
  | cons first contents ih => simp [receiveAll, receive, content, ih]

end Packet

namespace Sample

def truncated : Sample := packetDropped .unicast "truncated"

def countsConnections (sample : Sample) : Bool := sample.metric == (openConnections 0).metric

theorem countsConnections_openConnections (number : Nat) :
    (openConnections number).countsConnections = true := by
  simp [countsConnections, openConnections, gauge]

theorem value_openConnections {number : Nat} (h : number < 2 ^ precision) :
    (openConnections number).value = number := by
  have hdigits : roundToDigits precision number = number := roundToDigits_eq_self h
  have hle : number ≤ greatestReading := by
    have : (2 : Nat) ^ precision ≤ greatestReading := by decide
    omega
  simp only [openConnections, gauge, reading, hdigits]
  omega

/--
Whether a measurement tells of neither the number of streams nor an incomplete frame.
-/
structure Plain (sample : Sample) : Prop where
  truncated : sample ≠ truncated
  connections : sample.countsConnections = false

theorem plain_packetDropped (channel : Channel) {reason : String} (h : reason ≠ "truncated") :
    (packetDropped channel reason).Plain where
  truncated := by
    intro heq
    apply h
    simpa [packetDropped, Sample.truncated, count] using congrArg (·.metric.labels[1]!) heq
  connections := by simp [countsConnections, packetDropped, count, openConnections, gauge]

theorem plain_packetReceived (channel : Channel) (bytes : Nat) :
    ∀ sample ∈ packetReceived channel bytes, sample.Plain := by
  intro sample hmem
  simp only [packetReceived, List.mem_cons, List.not_mem_nil, or_false] at hmem
  rcases hmem with rfl | rfl
  . constructor
    . simp [truncated, packetDropped, count]
    . simp [countsConnections, count, openConnections, gauge]
  . constructor
    . simp [truncated, packetDropped, count, histogram]
    . simp [countsConnections, histogram, openConnections, gauge]

theorem plain_rejectedTask (pool : String) : (rejectedTask pool).Plain where
  truncated := by simp [rejectedTask, Sample.truncated, packetDropped, count]
  connections := by simp [countsConnections, rejectedTask, count, openConnections, gauge]

theorem count_truncated_of_plain {samples : List Sample}
    (h : ∀ sample ∈ samples, sample.Plain) : samples.count truncated = 0 := by
  rw [List.count_eq_zero]
  exact fun hmem => (h _ hmem).truncated rfl

theorem filter_countsConnections_of_plain {samples : List Sample}
    (h : ∀ sample ∈ samples, sample.Plain) : samples.filter countsConnections = [] := by
  rw [List.filter_eq_nil_iff]
  intro sample hmem
  simp [(h sample hmem).connections]

theorem openConnections_ne_truncated (number : Nat) :
    openConnections number ≠ truncated := by
  simp [truncated, packetDropped, openConnections, count, gauge]

end Sample

variable {τ : Type}

theorem Work.Pool.plain_submit (pool : Pool τ) (task : τ) :
    ∀ sample ∈ (pool.submit task).2.2, sample.Plain := by
  intro sample hmem
  unfold submit at hmem
  split at hmem
  . simp at hmem
  . simp at hmem
  . unfold place at hmem
    split at hmem
    . simp at hmem
    . split at hmem
      . rw [List.mem_singleton.mp hmem]
        exact Sample.plain_rejectedTask _
      . simp at hmem

def Work.Pool.submitAll (pool : Pool τ) (tasks : List τ) : Pool τ :=
  tasks.foldl (fun pool task => (pool.submit task).2.1) pool

def Work.networkOf (crew : Option (Work.Crew τ)) : Option (Work.Pool τ) := crew.map (·.network)

open Work (networkOf)

namespace Transport

namespace Processor

theorem network_dispatch (processor : Processor) (handle : Packet → τ) (packet : Packet)
    (crew : Option (Work.Crew τ)) :
    networkOf (processor.dispatch handle packet crew).crew
      =
    (networkOf crew).map (·.submitAll [handle packet]) := by
  cases crew <;> rfl

theorem network_dispatchAll (handle : Packet → τ) (packets : List Packet) (processor : Processor)
    (crew : Option (Work.Crew τ)) :
    networkOf (dispatchAll handle packets processor crew).crew
      =
    (networkOf crew).map (·.submitAll (packets.map handle)) := by
  induction packets generalizing processor crew with
  | nil => simp [dispatchAll, Work.Pool.submitAll]
  | cons packet packets ih =>
    rw [dispatchAll, ih, network_dispatch, Option.map_map]
    rfl

theorem network_close (processor : Processor) (crew : Option (Work.Crew τ)) :
    networkOf (processor.close crew).crew = networkOf crew := by
  have hcancel (number : Nat) :
      networkOf (crew.map fun workers =>
        { workers with timetable := workers.timetable.cancel number }) = networkOf crew := by
    cases crew <;> rfl
  unfold close
  split
  . rfl
  . dsimp only
    cases processor.watch with
    | none => split <;> rfl
    | some number =>
      split
      . exact hcancel number
      . exact hcancel number

theorem plain_dispatch (processor : Processor) (handle : Packet → τ) (packet : Packet)
    (crew : Option (Work.Crew τ)) :
    ∀ sample ∈ (processor.dispatch handle packet crew).samples, sample.Plain := by
  intro sample hmem
  unfold dispatch at hmem
  split at hmem
  . rcases List.mem_append.mp hmem with hmem | hmem
    . exact Sample.plain_packetReceived _ _ sample hmem
    . rw [List.mem_singleton.mp hmem]
      exact Sample.plain_packetDropped _ (by decide)
  . next workers =>
    simp only [List.mem_append] at hmem
    rcases hmem with (hmem | hmem) | hmem
    . exact Sample.plain_packetReceived _ _ sample hmem
    . exact workers.network.plain_submit _ sample hmem
    . split at hmem
      . simp at hmem
      . rw [List.mem_singleton.mp hmem]
        exact Sample.plain_packetDropped _ (by decide)

theorem plain_dispatchAll (handle : Packet → τ) (packets : List Packet) (processor : Processor)
    (crew : Option (Work.Crew τ)) :
    ∀ sample ∈ (dispatchAll handle packets processor crew).samples, sample.Plain := by
  induction packets generalizing processor crew with
  | nil => simp [dispatchAll]
  | cons packet packets ih =>
    intro sample hmem
    rw [dispatchAll, List.mem_append] at hmem
    rcases hmem with hmem | hmem
    . exact plain_dispatch processor handle packet crew sample hmem
    . exact ih _ _ sample hmem

end Processor

end Transport

end Zeroconf
