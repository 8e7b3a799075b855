/-!
This module contains the measurements that the library takes of itself. A counter reports the sum
of its samples. A gauge and a histogram report all of them, but of large ones the leading binary
digits only.
-/

namespace Zeroconf

inductive Channel where
  | multicast
  | unicast
  deriving DecidableEq, Repr

def Channel.label : Channel → String
  | multicast => "multicast"
  | unicast => "unicast"

inductive Metric.Kind where
  | counter
  | gauge
  | histogram
  deriving DecidableEq, Repr

structure Metric where
  kind : Metric.Kind
  name : String
  labels : List (String × String) := []
  deriving DecidableEq, Repr

def Metric.key (metric : Metric) : String :=
  let labels := metric.labels.map fun (label, value) => label ++ "=" ++ value
  metric.name ++ "\x7b" ++ ",".intercalate labels ++ "\x7d"

structure Sample where
  metric : Metric
  value : Nat
  deriving DecidableEq, Repr

/--
`n` with its leading `digits` binary digits, rounded to the closest such number and, of two that are
as close, to the one whose last digit is even.
-/
def roundToDigits (digits n : Nat) : Nat :=
  let unit := Nat.pow 2 (n.log2 + 1 - digits)
  let below := n / unit
  let rest := n % unit
  if 2 * rest < unit || (2 * rest == unit && below % 2 == 0) then below * unit
  else (below + 1) * unit

theorem roundToDigits_eq_self {digits n : Nat} (h : n < Nat.pow 2 digits) :
    roundToDigits digits n = n := by
  unfold roundToDigits
  by_cases hn : n = 0
  · simp [hn]
  · have := (Nat.log2_lt hn).2 h
    rw [show n.log2 + 1 - digits = 0 by omega]
    simp [Nat.mod_one]

namespace Sample

/-- A gauge and a histogram keep so many binary digits of a value. -/
def precision : Nat := 53

/-- No greater value is reported by a gauge or a histogram. -/
def greatestReading : Nat := Int64.maxValue.toNatClampNeg

def reading (value : Nat) : Nat := min greatestReading (roundToDigits precision value)

def count (name : String) (labels : List (String × String) := []) : Sample :=
  ⟨⟨.counter, name, labels⟩, 1⟩

def gauge (name : String) (value : Nat) : Sample := ⟨⟨.gauge, name, []⟩, reading value⟩

def histogram (name : String) (value : Nat) (labels : List (String × String) := []) : Sample :=
  ⟨⟨.histogram, name, labels⟩, reading value⟩

def kind (channel : Channel) : String × String := ("kind", channel.label)

def packetReceived (channel : Channel) (bytes : Nat) : List Sample :=
  [count "mdns.packet.received.count" [kind channel],
    histogram "mdns.packet.received.bytes" bytes [kind channel]]

def packetSent (channel : Channel) (bytes : Nat) : List Sample :=
  [count "mdns.packet.sent.count" [kind channel],
    histogram "mdns.packet.sent.bytes" bytes [kind channel]]

def packetDropped (channel : Channel) (reason : String) : Sample :=
  count "mdns.packet.dropped.count" [kind channel, ("reason", reason)]

def sendError (channel : Channel) : Sample :=
  count "mdns.packet.send_error.count" [kind channel]

def processorClosed (channel : Channel) (reason : String) : Sample :=
  count "mdns.processor.closed.count" [kind channel, ("reason", reason)]

def rejectedTask (pool : String) : Sample :=
  count "mdns.executor.rejected.count" [("pool", pool)]

def openConnections (number : Nat) : Sample := gauge "mdns.unicast.connections" number

/--
An inquiry that asked `responders` has come to its end.
-/
def resolution (outcome : String) (responders : Nat) : List Sample :=
  [count "mdns.resolution.count" [("outcome", outcome)],
    histogram "mdns.resolution.responders" responders]

/--
A truncated answer was asked for once more over a stream.
-/
def tcpRetry : Sample := count "mdns.unicast.tcp_retry.count"

def verbose (enabled : Bool) : Sample := gauge "mdns.options.verbose" enabled.toNat

/--
What the samples of each metric say together, in the order in which the metrics first occur.
-/
def summary (samples : List Sample) : List (String × List Nat) :=
  (samples.map Sample.metric).eraseDups.map fun metric =>
    let values := (samples.filter (·.metric == metric)).map Sample.value
    (metric.key, if metric.kind == .counter then [values.foldl (· + ·) 0] else values)

end Sample

end Zeroconf
