import Zeroconf.Error
import Zeroconf.Settings.Coercion

/-!
This module contains the settings of the library with their defaults, the reading of settings from
configuration values, and the check that the settings go together.
-/

namespace Zeroconf

/--
How queries are sent. Times are in milliseconds.
-/
structure QuerierSettings where
  /-- How long a query waits that was sent to multicast responders only. -/
  responseWait : Nat := 250
  /-- How long any query waits at most. -/
  timeout : Nat := 6000
  /-- Whether to query the multicast group of IPv4. -/
  ipv4 : Bool := true
  /-- Whether to query the multicast group of IPv6. -/
  ipv6 : Bool := true
  multicastPort : UInt16 := 5353
  /-- The nameservers; those of the system are used if there are none. -/
  nameservers : List SocketAddress := []
  deriving DecidableEq, Repr

structure NetworkSettings where
  /-- Whether processors are watched while they run. -/
  threadMonitor : Bool := false
  /-- Whether packets sent to a group do not come back to their sender. -/
  loopbackDisabled : Bool := false
  /-- How many hops a packet to a group may take. -/
  multicastTtl : UInt32 := 255
  interfaceV4 : Option IpAddress := none
  interfaceV6 : Option IpAddress := none
  /-- Where to listen for messages over streams. -/
  unicastListen : Option SocketAddress := none
  deriving DecidableEq, Repr

/--
What happens to a task for which a pool has no room.
-/
inductive Overflow where
  | reject
  /-- The task gets a worker of its own. -/
  | runUnpooled
  deriving DecidableEq, Repr

def Overflow.names : List (String × Overflow) :=
  [("reject", .reject), ("run-unpooled", .runUnpooled)]

def Overflow.text : Overflow → String
  | reject => "reject"
  | runUnpooled => "run-unpooled"

structure PoolSettings where
  /-- How many workers stay even if there is nothing to do. -/
  coreThreads : Nat
  maxThreads : Nat
  /-- How many tasks may wait. -/
  queueDepth : Nat
  priority : Int := 0
  overflow : Overflow
  deriving DecidableEq, Repr

structure ExecutorSettings where
  /-- The pool that handles packets. -/
  network : PoolSettings := ⟨2, 8, 256, 0, .reject⟩
  general : PoolSettings := ⟨2, 16, 128, 0, .runUnpooled⟩
  /-- The pool that runs tasks at set times. -/
  scheduled : PoolSettings := ⟨1, 2, 32, 0, .reject⟩
  deriving DecidableEq, Repr

structure TelemetrySettings where
  logLevel : String := "info"
  verbose : Bool := false
  /-- Where measurements can be fetched. -/
  prometheusAddress : Option SocketAddress := none
  deriving DecidableEq, Repr

structure Settings where
  querier : QuerierSettings := {}
  network : NetworkSettings := {}
  executors : ExecutorSettings := {}
  telemetry : TelemetrySettings := {}
  deriving DecidableEq, Repr

namespace Settings

open Coercion

/-!
The keys of each section.
-/

def querierKeys : List String :=
  ["response_wait_ms", "timeout_ms", "ipv4", "ipv6", "multicast_port", "nameservers"]

def networkKeys : List String :=
  ["thread_monitor", "multicast_loopback_disabled", "multicast_ttl", "interface_v4",
    "interface_v6", "unicast_listen"]

def poolKeys : List String :=
  ["core_threads", "max_threads", "queue_depth", "priority", "overflow"]

def executorKeys : List String := ["network", "general", "scheduled"]

def telemetryKeys : List String := ["log_level", "verbose", "prometheus_addr"]

def sectionKeys : List String := ["querier", "network", "executors", "telemetry"]

def readQuerier (coercion : Coercion) (value : Value) : Option QuerierSettings := do
  let default : QuerierSettings := {}
  let fields ← coercion.fields? querierKeys value
  return {
    responseWait :=
      ← field? fields "response_wait_ms" (coercion.nat? UInt64.size) default.responseWait
    timeout := ← field? fields "timeout_ms" (coercion.nat? UInt64.size) default.timeout
    ipv4 := ← field? fields "ipv4" coercion.bool? default.ipv4
    ipv6 := ← field? fields "ipv6" coercion.bool? default.ipv6
    multicastPort :=
      (← field? fields "multicast_port" (coercion.nat? UInt16.size)
        default.multicastPort.toNat).toUInt16
    nameservers :=
      ← field? fields "nameservers" (list? coercion.socketAddress?) default.nameservers }

def readNetwork (coercion : Coercion) (value : Value) : Option NetworkSettings := do
  let default : NetworkSettings := {}
  let fields ← coercion.fields? networkKeys value
  let address := option? coercion.ipAddress?
  return {
    threadMonitor := ← field? fields "thread_monitor" coercion.bool? default.threadMonitor
    loopbackDisabled :=
      ← field? fields "multicast_loopback_disabled" coercion.bool? default.loopbackDisabled
    multicastTtl :=
      (← field? fields "multicast_ttl" (coercion.nat? UInt32.size)
        default.multicastTtl.toNat).toUInt32
    interfaceV4 := ← field? fields "interface_v4" address default.interfaceV4
    interfaceV6 := ← field? fields "interface_v6" address default.interfaceV6
    unicastListen :=
      ← field? fields "unicast_listen" (option? coercion.socketAddress?) default.unicastListen }

def readPool (coercion : Coercion) (value : Value) : Option PoolSettings := do
  let fields ← coercion.fields? poolKeys value
  return {
    coreThreads := ← required? fields "core_threads" (coercion.nat? UInt64.size)
    maxThreads := ← required? fields "max_threads" (coercion.nat? UInt64.size)
    queueDepth := ← required? fields "queue_depth" (coercion.nat? UInt64.size)
    priority := ← field? fields "priority" coercion.int32? 0
    overflow := ← required? fields "overflow" (coercion.choice? Overflow.names) }

def readExecutors (coercion : Coercion) (value : Value) : Option ExecutorSettings := do
  let default : ExecutorSettings := {}
  let fields ← coercion.fields? executorKeys value
  return {
    network := ← field? fields "network" (readPool coercion) default.network
    general := ← field? fields "general" (readPool coercion) default.general
    scheduled := ← field? fields "scheduled" (readPool coercion) default.scheduled }

def readTelemetry (coercion : Coercion) (value : Value) : Option TelemetrySettings := do
  let default : TelemetrySettings := {}
  let fields ← coercion.fields? telemetryKeys value
  return {
    logLevel := ← field? fields "log_level" coercion.string? default.logLevel
    verbose := ← field? fields "verbose" coercion.bool? default.verbose
    prometheusAddress :=
      ← field? fields "prometheus_addr" (option? coercion.socketAddress?)
        default.prometheusAddress }

/--
The settings that a value describes, with defaults for what is missing. Unknown entries are passed
over.
-/
def read (coercion : Coercion) (value : Value) : Option Settings := do
  let fields ← coercion.fields? sectionKeys value
  return {
    querier := ← field? fields "querier" (readQuerier coercion) {}
    network := ← field? fields "network" (readNetwork coercion) {}
    executors := ← field? fields "executors" (readExecutors coercion) {}
    telemetry := ← field? fields "telemetry" (readTelemetry coercion) {} }

def poolProblem (name : String) (pool : PoolSettings) : Option String :=
  if pool.coreThreads == 0 || pool.maxThreads < pool.coreThreads then
    some s!"executors.{name}: need 0 < core_threads <= max_threads"
  else if pool.queueDepth == 0 then
    some s!"executors.{name}.queue_depth must be > 0"
  else
    none

def problem (settings : Settings) : Option String :=
  let { querier, network, executors, .. } := settings
  if querier.responseWait == 0 then
    some "querier.response_wait_ms must be > 0"
  else if querier.timeout < querier.responseWait then
    some "querier.timeout_ms must be >= querier.response_wait_ms"
  else if network.multicastTtl == 0 then
    some "network.multicast_ttl must be > 0"
  else
    poolProblem "network" executors.network <|> poolProblem "general" executors.general <|>
      poolProblem "scheduled" executors.scheduled

def validate (settings : Settings) : Except Error Unit :=
  match settings.problem with
  | some reason => .error (.config reason)
  | none => .ok ()

end Settings

end Zeroconf
