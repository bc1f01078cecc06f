import SessionDispatch.CommandLine.Flags
import SessionDispatch.Files
import SessionDispatch.Settings.Environment
import SessionDispatch.Toml.Document

/-!
# Configurations

The settings of a daemon come from four layers: defaults, a file, the environment and the command
line. A later layer wins, setting by setting. What a configuration was made of is kept, so that it
can be made again after the file has changed.
-/

namespace SessionDispatch

/-- Settings, the file that they were read from, and the flags that go over file and environment. -/
structure Configuration where
  settings : Settings
  source : Option String := none
  overrides : Option CommandLine.Flags := none
deriving DecidableEq, Repr

/-- Why a configuration could not be made. -/
inductive LoadError
  | unreadable (path : String)
  | malformed (path : String)
  | portOutOfRange (n : Int)
  | invalid (errors : List SettingError)
deriving DecidableEq, Repr

namespace LoadError

def message : LoadError → String
  | unreadable path => s!"Failed to read config file: {path}"
  | malformed path => s!"Failed to parse TOML config: {path}"
  | portOutOfRange n => s!"IKEV2D_GLOBAL__NETWORK__PORT out of range: {n}"
  | invalid errors =>
    "Configuration validation failed:\n" ++ "\n".intercalate (errors.map (·.message))

end LoadError

/-- A load with the warnings that were given on the way, also if it fails. -/
abbrev Load := ExceptT LoadError (StateM (List Warning))

namespace Load

def warn (ws : List Warning) : Load Unit := modify (· ++ ws)

end Load

namespace CommandLine.Flags

/-- Puts the settings given on the command line over others. -/
def override (flags : Flags) (s : Settings) : Settings × List Warning :=
  let (level, warnings) := match flags.logLevel.map fun t => (t, LogLevel.parse t) with
    | none => (s.logging.level, [])
    | some (_, .ok level) => (level, [])
    | some (t, .error _) => (s.logging.level, [.levelIgnored t])
  ({ s with
      network := { s.network with
        host4 := flags.host4.getD s.network.host4
        host6 := flags.host6.getD s.network.host6
        port := flags.port.getD s.network.port }
      dispatch := { s.dispatch with
        queueOrder := flags.queueOrder.getD s.dispatch.queueOrder
        sessionTimeoutMs := flags.sessionTimeoutMs.getD s.dispatch.sessionTimeoutMs }
      logging := { s.logging with level } },
    warnings)

end CommandLine.Flags

namespace Configuration

/-- Reads a file. Without a file all settings have their defaults. -/
def ofFile (processors : UInt64) (files : Files) (path : String) : Load Configuration := do
  let settings ← match files.find? path with
    | none => do
      Load.warn [.fileMissing path]
      pure (.default processors)
    | some (.text content) =>
      match (Toml.parse? content).bind (Settings.read processors Tree.tomlFormat) with
      | some settings => pure settings
      | none => throw (.malformed path)
    | some .binary | some .directory => throw (.unreadable path)
  return { settings, source := some path }

def overEnvironment (c : Configuration) (env : Environment) : Load Configuration :=
  match env.override c.settings with
  | .ok (settings, warnings) => do
    Load.warn warnings
    return { c with settings }
  | .error n => throw (.portOutOfRange n)

def overFlags (c : Configuration) (flags : CommandLine.Flags) : Load Configuration := do
  let (settings, warnings) := flags.override c.settings
  Load.warn warnings
  return { c with settings, overrides := some flags }

/-- Lets only valid settings pass. -/
def validated (c : Configuration) : Load Configuration := do
  let findings := c.settings.check
  Load.warn findings.warnings
  if findings.errors = [] then return c else throw (.invalid findings.errors)

/-- The configuration of a command line. -/
def resolve (files : Files) (env : Environment) (flags : CommandLine.Flags) :
    Load Configuration := do
  let c ← ofFile env.processors files flags.config
  let c ← c.overEnvironment env
  let c ← c.overFlags flags
  c.validated

/-- The configuration that a file makes again, with the environment and perhaps with flags that
were kept. -/
def load (files : Files) (path : String) (env : Environment) (flags : Option CommandLine.Flags) :
    Load Configuration := do
  let c ← ofFile env.processors files path
  let c ← c.overEnvironment env
  let c ← match flags with
    | some flags => c.overFlags flags
    | none => pure c
  c.validated

end Configuration

end SessionDispatch
