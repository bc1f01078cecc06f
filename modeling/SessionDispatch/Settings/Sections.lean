import SessionDispatch.LogLevel
import SessionDispatch.Queue
import SessionDispatch.Session.Expiry
import SessionDispatch.Settings.Record

/-!
# The sections of the settings

Every field has a default, so any part of the settings may be left out. The number of threads for
short tasks is by default the number of processors, which the system tells.
-/

namespace SessionDispatch

/-- Where the endpoints of each family listen. With port zero the system picks a port for every
endpoint. -/
structure NetworkSettings where
  host4 : String := "127.0.0.1"
  host6 : String := "::"
  port : UInt16 := 34455
  enableIpv4 : Bool := true
  enableIpv6 : Bool := true
deriving DecidableEq, Repr

/-- The sockets of a family. Datagrams are cut off at `recvBufferSize`. -/
structure NetIoSettings where
  endpointsPerFamily : UInt64 := 6
  recvBufferSize : UInt64 := 1024
  reusePort : Bool := false
  socketRecvBufferSize : Option UInt64 := none
  socketSendBufferSize : Option UInt64 := none
deriving DecidableEq, Repr

/-- How records become sessions. -/
structure DispatchSettings where
  dispatchersPerFamily : UInt64 := 3
  queueOrder : Discipline := .fifo
  sessionTimeoutMs : UInt64 := 3000
  expiryMode : ExpiryMode := .fixed
deriving DecidableEq, Repr

namespace DispatchSettings

def policy (s : DispatchSettings) : ExpiryPolicy := ⟨s.sessionTimeoutMs, s.expiryMode⟩

end DispatchSettings

/-- The worker pool, which grows when more than `growthThreshold` tasks are outstanding. Its
`poolThreads` threads are there besides those for the loops. -/
structure RuntimeSettings where
  poolThreads : UInt64
  growthThreshold : UInt64 := 50
  threadName : String := "ikev2d-worker"
  threadStackSize : UInt64 := 2097152
  raiseCoreLimit : Bool := true
deriving DecidableEq, Repr

structure LoggingSettings where
  level : LogLevel := .info
  jsonFormat : Bool := false
  enableColors : Bool := true
  includeFileLine : Bool := false
deriving DecidableEq, Repr

structure TelemetrySettings where
  serviceName : String := "ikev2d"
  enableMetrics : Bool := true
  exportIntervalSecs : UInt64 := 60
deriving DecidableEq, Repr

structure Settings where
  network : NetworkSettings := {}
  netio : NetIoSettings := {}
  dispatch : DispatchSettings := {}
  runtime : RuntimeSettings
  logging : LoggingSettings := {}
  telemetry : TelemetrySettings := {}
deriving DecidableEq, Repr

def NetworkSettings.fields : Record NetworkSettings := [
  .text "host4" host4 fun v s => { s with host4 := v },
  .text "host6" host6 fun v s => { s with host6 := v },
  .port "port" port fun v s => { s with port := v },
  .bool "enable_ipv4" enableIpv4 fun v s => { s with enableIpv4 := v },
  .bool "enable_ipv6" enableIpv6 fun v s => { s with enableIpv6 := v }]

def NetIoSettings.fields : Record NetIoSettings := [
  .count "endpoints_per_family" endpointsPerFamily fun v s => { s with endpointsPerFamily := v },
  .count "recv_buffer_size" recvBufferSize fun v s => { s with recvBufferSize := v },
  .bool "reuse_port" reusePort fun v s => { s with reusePort := v },
  .optionalCount "socket_recv_buffer_size" socketRecvBufferSize
    fun v s => { s with socketRecvBufferSize := v },
  .optionalCount "socket_send_buffer_size" socketSendBufferSize
    fun v s => { s with socketSendBufferSize := v }]

def DispatchSettings.fields : Record DispatchSettings := [
  .count "dispatchers_per_family" dispatchersPerFamily
    fun v s => { s with dispatchersPerFamily := v },
  .word "queue_order" Discipline.ofName? Discipline.name queueOrder
    fun v s => { s with queueOrder := v },
  .count "session_timeout_ms" sessionTimeoutMs fun v s => { s with sessionTimeoutMs := v },
  .word "expiry_mode" ExpiryMode.ofName? ExpiryMode.name expiryMode
    fun v s => { s with expiryMode := v }]

def RuntimeSettings.fields : Record RuntimeSettings := [
  .count "pool_threads" poolThreads fun v s => { s with poolThreads := v },
  .count "growth_threshold" growthThreshold fun v s => { s with growthThreshold := v },
  .text "thread_name" threadName fun v s => { s with threadName := v },
  .count "thread_stack_size" threadStackSize fun v s => { s with threadStackSize := v },
  .bool "raise_core_limit" raiseCoreLimit fun v s => { s with raiseCoreLimit := v }]

def LoggingSettings.fields : Record LoggingSettings := [
  .word "level" LogLevel.ofName? LogLevel.name level fun v s => { s with level := v },
  .bool "json_format" jsonFormat fun v s => { s with jsonFormat := v },
  .bool "enable_colors" enableColors fun v s => { s with enableColors := v },
  .bool "include_file_line" includeFileLine fun v s => { s with includeFileLine := v }]

def TelemetrySettings.fields : Record TelemetrySettings := [
  .text "service_name" serviceName fun v s => { s with serviceName := v },
  .bool "enable_metrics" enableMetrics fun v s => { s with enableMetrics := v },
  .count "export_interval_secs" exportIntervalSecs fun v s => { s with exportIntervalSecs := v }]

namespace Settings

/-- The settings on a system with so many processors, where nothing is given. -/
def default (processors : UInt64) : Settings := { runtime := { poolThreads := processors } }

def fields : Record Settings := [
  .record "network" NetworkSettings.fields network fun v s => { s with network := v },
  .record "netio" NetIoSettings.fields netio fun v s => { s with netio := v },
  .record "dispatch" DispatchSettings.fields dispatch fun v s => { s with dispatch := v },
  .record "runtime" RuntimeSettings.fields runtime fun v s => { s with runtime := v },
  .record "logging" LoggingSettings.fields logging fun v s => { s with logging := v },
  .record "telemetry" TelemetrySettings.fields telemetry fun v s => { s with telemetry := v }]

/-- A document holds the settings in one table. -/
def document : Record Settings := [.record "global" fields id fun v _ => v]

def read (processors : UInt64) (format : Tree.Format) (t : Tree) : Option Settings :=
  document.read format (default processors) t

def toTree (s : Settings) : Tree := document.toTree s

/-- The settings as blocks of a document. -/
def blocks (s : Settings) : List Toml.Block := [
  ⟨["global", "network"], NetworkSettings.fields.write s.network⟩,
  ⟨["global", "netio"], NetIoSettings.fields.write s.netio⟩,
  ⟨["global", "dispatch"], DispatchSettings.fields.write s.dispatch⟩,
  ⟨["global", "runtime"], RuntimeSettings.fields.write s.runtime⟩,
  ⟨["global", "logging"], LoggingSettings.fields.write s.logging⟩,
  ⟨["global", "telemetry"], TelemetrySettings.fields.write s.telemetry⟩]

def render (s : Settings) : String := Toml.render s.blocks

end Settings

end SessionDispatch
