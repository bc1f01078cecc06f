import SessionDispatch.Address.Socket
import SessionDispatch.Settings.Sections

/-!
# Checking settings

Each section is checked on its own, and the errors of all sections are reported together. A warning
never makes settings invalid.
-/

namespace SessionDispatch

/-- Why settings are refused. -/
inductive SettingError
  | noFamily
  | empty (setting : String)
  | hostOfFamily (setting : String) (family : Family) (host : String)
  | notPositive (setting : String)
  | tooMany (setting : String) (limit : Nat)
  | noDispatcher
  | bufferTooLarge (size : UInt64)
  | tooSmall (setting : String) (limit : String)
  | tooLarge (setting : String) (limit : String)
deriving DecidableEq, Repr

/-- The largest payload of a datagram over IPv4. -/
def maxUdpPayload : Nat := 65507

namespace SettingError

def message : SettingError → String
  | noFamily => "At least one of enable_ipv4 / enable_ipv6 must be true"
  | empty setting => s!"{setting} must not be empty"
  | hostOfFamily setting family host => s!"{setting} is an {family} address: {host}"
  | notPositive setting => s!"{setting} must be > 0"
  | tooMany setting limit => s!"{setting} is unreasonably high (> {limit})"
  | noDispatcher => "dispatch.dispatchers_per_family must be at least 1"
  | bufferTooLarge size =>
    s!"netio.recv_buffer_size ({size}) exceeds the maximum UDP payload ({maxUdpPayload})"
  | tooSmall setting limit => s!"{setting} too small (< {limit})"
  | tooLarge setting limit => s!"{setting} too large (> {limit})"

end SettingError

/-- What is worth telling about settings or about where they come from. -/
inductive Warning
  | systemPort
  | shortTimeout (timeoutMs : UInt64)
  | newestFirst
  | eagerGrowth (threshold longRunning : UInt64)
  | idleDispatchers (dispatchers endpoints : UInt64)
  | fileMissing (path : String)
  | variableIgnored (name : String) (error : ParseError)
  | levelIgnored (text : String)
deriving DecidableEq, Repr

namespace Warning

def message : Warning → String
  | systemPort => "port=0: every endpoint binds to its own OS-assigned port"
  | shortTimeout _ => "session_timeout_ms is very short, sessions may expire mid-exchange"
  | newestFirst => "queue_order = lifo: records are not dispatched in arrival order"
  | eagerGrowth threshold longRunning =>
    s!"runtime.growth_threshold ({threshold}) does not exceed the {longRunning} " ++
      "long-running tasks. The pool will add a thread for almost every timer callback."
  | idleDispatchers dispatchers endpoints =>
    s!"dispatch.dispatchers_per_family ({dispatchers}) is far above " ++
      s!"netio.endpoints_per_family ({endpoints}). Most dispatchers will sit idle."
  | fileMissing _ => "Configuration file not found, using defaults"
  | variableIgnored name _ => s!"Ignoring {name}"
  | levelIgnored _ => "Invalid log level specified, ignoring"

/-- What is logged beside the message. -/
def details : Warning → List (String × String)
  | shortTimeout timeoutMs => [("timeout_ms", toString timeoutMs)]
  | fileMissing path => [("config_path", path)]
  | variableIgnored _ error => [("error", error.message)]
  | levelIgnored text => [("level", text)]
  | _ => []

end Warning

/-- The errors and the warnings of a check. -/
structure Findings where
  errors : List SettingError
  warnings : List Warning
deriving DecidableEq, Repr

namespace Findings

def append (a b : Findings) : Findings := ⟨a.errors ++ b.errors, a.warnings ++ b.warnings⟩

instance : Append Findings := ⟨append⟩

end Findings

/-- The error, if the condition for it holds. -/
def SettingError.ifHolds (condition : Bool) (e : SettingError) : List SettingError :=
  if condition then [e] else []

open SettingError (ifHolds)

/-- A host given by its address must belong to the family; a name can be checked only when it
is used. -/
def hostErrors (setting : String) (family : Family) (host : String) : List SettingError :=
  if host = "" then [.empty setting]
  else match Host.parse? host.toList with
    | some h => ifHolds (h.family ≠ family) (.hostOfFamily setting h.family host)
    | none => []

namespace NetworkSettings

def enabled (s : NetworkSettings) : Family → Bool
  | .v4 => s.enableIpv4
  | .v6 => s.enableIpv6

def families (s : NetworkSettings) : List Family := [Family.v4, .v6].filter s.enabled

def host (s : NetworkSettings) : Family → String
  | .v4 => s.host4
  | .v6 => s.host6

def check (s : NetworkSettings) : Findings where
  errors := ifHolds (!s.enableIpv4 && !s.enableIpv6) .noFamily ++
    (if s.enableIpv4 then hostErrors "host4" .v4 s.host4 else []) ++
    (if s.enableIpv6 then hostErrors "host6" .v6 s.host6 else [])
  warnings := if s.port = 0 then [.systemPort] else []

end NetworkSettings

namespace NetIoSettings

def bufferErrors (setting : String) (size : Option UInt64) : List SettingError :=
  ifHolds (size.any (· < 4096)) (.tooSmall setting "4 KB")

def check (s : NetIoSettings) : Findings where
  errors := ifHolds (s.endpointsPerFamily = 0) (.notPositive "netio.endpoints_per_family") ++
    ifHolds (256 < s.endpointsPerFamily) (.tooMany "netio.endpoints_per_family" 256) ++
    ifHolds (s.recvBufferSize = 0) (.notPositive "netio.recv_buffer_size") ++
    ifHolds (maxUdpPayload < s.recvBufferSize.toNat) (.bufferTooLarge s.recvBufferSize) ++
    bufferErrors "netio.socket_recv_buffer_size" s.socketRecvBufferSize ++
    bufferErrors "netio.socket_send_buffer_size" s.socketSendBufferSize
  warnings := []

end NetIoSettings

namespace DispatchSettings

/-- Only the first error is reported, and warnings only if there is none. -/
def check (s : DispatchSettings) : Findings :=
  if s.dispatchersPerFamily = 0 then ⟨[.noDispatcher], []⟩
  else if 256 < s.dispatchersPerFamily then ⟨[.tooMany "dispatch.dispatchers_per_family" 256], []⟩
  else if s.sessionTimeoutMs = 0 then ⟨[.notPositive "dispatch.session_timeout_ms"], []⟩
  else ⟨[], (if s.sessionTimeoutMs < 100 then [.shortTimeout s.sessionTimeoutMs] else []) ++
    (if s.queueOrder = .lifo then [.newestFirst] else [])⟩

end DispatchSettings

namespace RuntimeSettings

def check (s : RuntimeSettings) : Findings where
  errors := ifHolds (s.poolThreads = 0) (.notPositive "pool_threads") ++
    ifHolds (1024 < s.poolThreads) (.tooMany "pool_threads" 1024) ++
    ifHolds (s.growthThreshold = 0) (.notPositive "growth_threshold") ++
    ifHolds (s.threadName = "") (.empty "thread_name") ++
    ifHolds (s.threadStackSize < 128 * 1024) (.tooSmall "thread_stack_size" "128 KB") ++
    ifHolds (64 * 1024 * 1024 < s.threadStackSize) (.tooLarge "thread_stack_size" "64 MB")
  warnings := []

end RuntimeSettings

namespace TelemetrySettings

def check (s : TelemetrySettings) : Findings where
  errors := ifHolds (s.serviceName = "") (.empty "telemetry.service_name") ++
    ifHolds (s.enableMetrics && s.exportIntervalSecs = 0)
      (.notPositive "telemetry.export_interval_secs")
  warnings := []

end TelemetrySettings

namespace Settings

/-- The findings of all sections. Logging settings are always valid. -/
def checkSections (s : Settings) : Findings :=
  s.network.check ++ s.netio.check ++ s.dispatch.check ++ s.runtime.check ++ s.telemetry.check

def familyCount (s : Settings) : UInt64 := s.network.families.length.toUInt64

/-- The tasks that never end while the daemon runs: for every family a receive and a send loop for
each endpoint and the dispatchers, and besides these the timer loop and the reload watcher. -/
def longRunning (s : Settings) : UInt64 :=
  s.familyCount * (2 * s.netio.endpointsPerFamily + s.dispatch.dispatchersPerFamily) + 2

/-- Limits that do not make sense together. -/
def limitWarnings (s : Settings) : List Warning :=
  (if s.runtime.growthThreshold ≤ s.longRunning then
    [.eagerGrowth s.runtime.growthThreshold s.longRunning] else []) ++
  (if s.netio.endpointsPerFamily * 4 < s.dispatch.dispatchersPerFamily then
    [.idleDispatchers s.dispatch.dispatchersPerFamily s.netio.endpointsPerFamily] else [])

/-- Limits are compared only where every section is valid. -/
def check (s : Settings) : Findings :=
  let sections := s.checkSections
  if sections.errors = [] then ⟨[], sections.warnings ++ s.limitWarnings⟩ else sections

end Settings

end SessionDispatch
