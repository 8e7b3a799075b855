import Zeroconf.Settings

/-!
This module contains the writing of settings as configuration values, with every entry of every
section. Optional settings that are not there are null.
-/

namespace Zeroconf

namespace Settings

def textOrNull (text : Option String) : Value := (text.map Value.string).getD .null

end Settings

open Settings

def QuerierSettings.toValue (querier : QuerierSettings) : Value :=
  .table [("response_wait_ms", .int querier.responseWait), ("timeout_ms", .int querier.timeout),
    ("ipv4", .bool querier.ipv4), ("ipv6", .bool querier.ipv6),
    ("multicast_port", .int querier.multicastPort.toNat),
    ("nameservers", .list (querier.nameservers.map fun address => .string address.text))]

def NetworkSettings.toValue (network : NetworkSettings) : Value :=
  .table [("thread_monitor", .bool network.threadMonitor),
    ("multicast_loopback_disabled", .bool network.loopbackDisabled),
    ("multicast_ttl", .int network.multicastTtl.toNat),
    ("interface_v4", textOrNull (network.interfaceV4.map IpAddress.text)),
    ("interface_v6", textOrNull (network.interfaceV6.map IpAddress.text)),
    ("unicast_listen", textOrNull (network.unicastListen.map SocketAddress.text))]

def PoolSettings.toValue (pool : PoolSettings) : Value :=
  .table [("core_threads", .int pool.coreThreads), ("max_threads", .int pool.maxThreads),
    ("queue_depth", .int pool.queueDepth), ("priority", .int pool.priority),
    ("overflow", .string pool.overflow.text)]

def ExecutorSettings.toValue (executors : ExecutorSettings) : Value :=
  .table [("network", executors.network.toValue), ("general", executors.general.toValue),
    ("scheduled", executors.scheduled.toValue)]

def TelemetrySettings.toValue (telemetry : TelemetrySettings) : Value :=
  .table [("log_level", .string telemetry.logLevel), ("verbose", .bool telemetry.verbose),
    ("prometheus_addr", textOrNull (telemetry.prometheusAddress.map SocketAddress.text))]

namespace Settings

def toValue (settings : Settings) : Value :=
  .table [("querier", settings.querier.toValue), ("network", settings.network.toValue),
    ("executors", settings.executors.toValue), ("telemetry", settings.telemetry.toValue)]

end Settings

end Zeroconf
