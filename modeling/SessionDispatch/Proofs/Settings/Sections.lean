import SessionDispatch.Proofs.Settings.Reading
import SessionDispatch.Settings.Configuration

/-!
# All settings

Every setting has a place in the configuration file and a default, and some have a variable or a
flag as well. The tables list the settings of each section with all of these; sections that agree in
every setting are the same.
-/

namespace SessionDispatch

open CommandLine (Flags)

namespace Environment

def natural? (env : Environment) (path : String) : Option Nat := (env.int? path).map Int.toNat

def parsed? {α : Type} (parse : String → Except ParseError α) (env : Environment) (path : String) :
    Option α :=
  (env.text? path).bind fun t => (parse t).toOption

end Environment

/-- A setting of a section: where the section holds it, what a file's value means, and how a
variable and the flags give it, if they do. -/
structure Setting (τ : Type) where
  Value : Type
  name : String
  get : τ → Value
  decode : Tree → Option Value
  convert : Environment → String → Option Value := fun _ _ => none
  flag : Flags → Option Value := fun _ => none

def maxCount : Nat := UInt64.size - 1

def NetworkSettings.all : List (Setting NetworkSettings) := [
  { Value := String, name := "host4", get := host4, decode := Tree.text?
    convert := Environment.text?, flag := Flags.host4 },
  { Value := String, name := "host6", get := host6, decode := Tree.text?
    convert := Environment.text?, flag := Flags.host6 },
  { Value := Nat, name := "port", get := fun s => s.port.toNat, decode := Tree.nat? 0xffff
    convert := Environment.natural?, flag := fun f => f.port.map UInt16.toNat },
  { Value := Bool, name := "enable_ipv4", get := enableIpv4, decode := Tree.bool?,
    convert := Environment.bool? },
  { Value := Bool, name := "enable_ipv6", get := enableIpv6, decode := Tree.bool?,
    convert := Environment.bool? }]

def NetIoSettings.all : List (Setting NetIoSettings) := [
  { Value := Nat, name := "endpoints_per_family", get := fun s => s.endpointsPerFamily.toNat
    decode := Tree.nat? maxCount, convert := Environment.natural? },
  { Value := Nat, name := "recv_buffer_size", get := fun s => s.recvBufferSize.toNat,
    decode := Tree.nat? maxCount },
  { Value := Bool, name := "reuse_port", get := reusePort, decode := Tree.bool? },
  { Value := Option Nat, name := "socket_recv_buffer_size",
    get := fun s => s.socketRecvBufferSize.map UInt64.toNat
    decode := Tree.optionalNat? maxCount },
  { Value := Option Nat, name := "socket_send_buffer_size",
    get := fun s => s.socketSendBufferSize.map UInt64.toNat
    decode := Tree.optionalNat? maxCount }]

def DispatchSettings.all : List (Setting DispatchSettings) := [
  { Value := Nat, name := "dispatchers_per_family", get := fun s => s.dispatchersPerFamily.toNat
    decode := Tree.nat? maxCount, convert := Environment.natural? },
  { Value := Discipline, name := "queue_order", get := queueOrder
    decode := fun t => (t.word? Tree.tomlFormat).bind Discipline.ofName?
    convert := Environment.parsed? Discipline.parse, flag := Flags.queueOrder },
  { Value := Nat, name := "session_timeout_ms", get := fun s => s.sessionTimeoutMs.toNat,
    decode := Tree.nat? maxCount
    convert := Environment.natural?, flag := fun f => f.sessionTimeoutMs.map UInt64.toNat },
  { Value := ExpiryMode, name := "expiry_mode", get := expiryMode
    decode := fun t => (t.word? Tree.tomlFormat).bind ExpiryMode.ofName?
    convert := Environment.parsed? ExpiryMode.parse }]

def RuntimeSettings.all : List (Setting RuntimeSettings) := [
  { Value := Nat, name := "pool_threads", get := fun s => s.poolThreads.toNat,
    decode := Tree.nat? maxCount
    convert := Environment.natural? },
  { Value := Nat, name := "growth_threshold", get := fun s => s.growthThreshold.toNat,
    decode := Tree.nat? maxCount },
  { Value := String, name := "thread_name", get := threadName, decode := Tree.text? },
  { Value := Nat, name := "thread_stack_size", get := fun s => s.threadStackSize.toNat,
    decode := Tree.nat? maxCount },
  { Value := Bool, name := "raise_core_limit", get := raiseCoreLimit, decode := Tree.bool? }]

def LoggingSettings.all : List (Setting LoggingSettings) := [
  { Value := LogLevel, name := "level", get := level
    decode := fun t => (t.word? Tree.tomlFormat).bind LogLevel.ofName?
    convert := Environment.parsed? LogLevel.parse
    flag := fun f => f.logLevel.bind fun t => (LogLevel.parse t).toOption },
  { Value := Bool, name := "json_format", get := jsonFormat, decode := Tree.bool? },
  { Value := Bool, name := "enable_colors", get := enableColors, decode := Tree.bool? },
  { Value := Bool, name := "include_file_line", get := includeFileLine, decode := Tree.bool? }]

def TelemetrySettings.all : List (Setting TelemetrySettings) := [
  { Value := String, name := "service_name", get := serviceName, decode := Tree.text? },
  { Value := Bool, name := "enable_metrics", get := enableMetrics, decode := Tree.bool? },
  { Value := Nat, name := "export_interval_secs", get := fun s => s.exportIntervalSecs.toNat
    decode := Tree.nat? maxCount }]

/-! ## Tables and sections -/

section Tables

variable {τ : Type}

/-- Every setting of a table is a field of its section. -/
def Setting.InFields (settings : List (Setting τ)) (fields : Record τ) : Prop :=
  ∀ d, ∀ k ∈ settings, fields.Keeps Tree.tomlFormat d k.name k.get k.decode

/-- Parts that agree in every setting of a table are the same. -/
def Setting.Complete (settings : List (Setting τ)) : Prop :=
  ∀ s s' : τ, (∀ k ∈ settings, k.get s = k.get s') → s = s'

end Tables

open Setting (InFields Complete)

theorem inFields_network : InFields NetworkSettings.all NetworkSettings.fields := by
  intro d
  simp only [NetworkSettings.all, List.forall_mem_cons]
  refine ⟨?_, ?_, ?_, ?_, ?_, nofun⟩ <;> constructor <;> simp [NetworkSettings.fields, Record.names]

theorem inFields_netio : InFields NetIoSettings.all NetIoSettings.fields := by
  intro d
  simp only [NetIoSettings.all, List.forall_mem_cons]
  refine ⟨?_, ?_, ?_, ?_, ?_, nofun⟩ <;> constructor <;>
    simp [NetIoSettings.fields, Record.names, maxCount]

theorem inFields_dispatch : InFields DispatchSettings.all DispatchSettings.fields := by
  intro d
  simp only [DispatchSettings.all, List.forall_mem_cons]
  refine ⟨?_, ?_, ?_, ?_, nofun⟩ <;> constructor <;>
    simp [DispatchSettings.fields, Record.names, maxCount]

theorem inFields_runtime : InFields RuntimeSettings.all RuntimeSettings.fields := by
  intro d
  simp only [RuntimeSettings.all, List.forall_mem_cons]
  refine ⟨?_, ?_, ?_, ?_, ?_, nofun⟩ <;> constructor <;>
    simp [RuntimeSettings.fields, Record.names, maxCount]

theorem inFields_logging : InFields LoggingSettings.all LoggingSettings.fields := by
  intro d
  simp only [LoggingSettings.all, List.forall_mem_cons]
  refine ⟨?_, ?_, ?_, ?_, nofun⟩ <;> constructor <;> simp [LoggingSettings.fields, Record.names]

theorem inFields_telemetry : InFields TelemetrySettings.all TelemetrySettings.fields := by
  intro d
  simp only [TelemetrySettings.all, List.forall_mem_cons]
  refine ⟨?_, ?_, ?_, nofun⟩ <;> constructor <;>
    simp [TelemetrySettings.fields, Record.names, maxCount]

theorem map_toNat_inj {a b : Option UInt64} : a.map UInt64.toNat = b.map UInt64.toNat ↔ a = b :=
  (Option.map_injective fun _ _ => UInt64.toNat_inj.mp).eq_iff

theorem complete_network : Complete NetworkSettings.all := by
  rintro ⟨⟩ ⟨⟩ h
  simpa [NetworkSettings.all, UInt16.toNat_inj] using h

theorem complete_netio : Complete NetIoSettings.all := by
  rintro ⟨⟩ ⟨⟩ h
  simpa [NetIoSettings.all, UInt64.toNat_inj, map_toNat_inj] using h

theorem complete_dispatch : Complete DispatchSettings.all := by
  rintro ⟨⟩ ⟨⟩ h
  simpa [DispatchSettings.all, UInt64.toNat_inj] using h

theorem complete_runtime : Complete RuntimeSettings.all := by
  rintro ⟨⟩ ⟨⟩ h
  simpa [RuntimeSettings.all, UInt64.toNat_inj] using h

theorem complete_logging : Complete LoggingSettings.all := by
  rintro ⟨⟩ ⟨⟩ h
  simpa [LoggingSettings.all] using h

theorem complete_telemetry : Complete TelemetrySettings.all := by
  rintro ⟨⟩ ⟨⟩ h
  simpa [TelemetrySettings.all, UInt64.toNat_inj] using h

/-- A section of the settings, with the table of all its settings. -/
structure Section where
  Part : Type
  name : String
  fields : Record Part
  get : Settings → Part
  settings : List (Setting Part)
  inFields : InFields settings fields
  complete : Complete settings

def Section.all : List Section := [
  ⟨_, "network", _, Settings.network, _, inFields_network, complete_network⟩,
  ⟨_, "netio", _, Settings.netio, _, inFields_netio, complete_netio⟩,
  ⟨_, "dispatch", _, Settings.dispatch, _, inFields_dispatch, complete_dispatch⟩,
  ⟨_, "runtime", _, Settings.runtime, _, inFields_runtime, complete_runtime⟩,
  ⟨_, "logging", _, Settings.logging, _, inFields_logging, complete_logging⟩,
  ⟨_, "telemetry", _, Settings.telemetry, _, inFields_telemetry, complete_telemetry⟩]

theorem Settings.ext_sections {s s' : Settings} (h : ∀ p ∈ Section.all, p.get s = p.get s') :
    s = s' := by
  obtain ⟨⟩ := s
  obtain ⟨⟩ := s'
  simpa [Section.all] using h

theorem keeps_section (d : Settings) : ∀ p ∈ Section.all,
    Settings.fields.Keeps Tree.tomlFormat d p.name p.get
      (p.fields.read Tree.tomlFormat (p.get d)) := by
  simp only [Section.all, List.forall_mem_cons]
  refine ⟨?_, ?_, ?_, ?_, ?_, ?_, nofun⟩ <;> constructor <;> simp [Settings.fields, Record.names]

theorem keeps_global (d : Settings) :
    Settings.document.Keeps Tree.tomlFormat d "global" id
      (Settings.fields.read Tree.tomlFormat d) := by
  constructor <;> simp [Settings.document, Record.names]

end SessionDispatch
