import SessionDispatch.Settings.Validation
import SessionDispatch.Text.Fold

/-!
# Settings from the environment

A variable whose name starts with `IKEV2D_` names a setting, with two underscores between the parts.
Case does not matter. A value that is no value of its setting counts as not given.
-/

namespace SessionDispatch

/-- What the system tells a program: names and values of variables, and how many processors there
are. -/
structure Environment where
  entries : List (String × String)
  processors : UInt64
deriving DecidableEq, Repr

namespace Environment

def namePrefix : String := "ikev2d_"

/-- The variables that name a setting, as they are usually written. -/
def variableNames : List String := [
  "IKEV2D_GLOBAL__NETWORK__HOST4", "IKEV2D_GLOBAL__NETWORK__HOST6", "IKEV2D_GLOBAL__NETWORK__PORT",
  "IKEV2D_GLOBAL__NETWORK__ENABLE_IPV4", "IKEV2D_GLOBAL__NETWORK__ENABLE_IPV6",
  "IKEV2D_GLOBAL__NETIO__ENDPOINTS_PER_FAMILY", "IKEV2D_GLOBAL__DISPATCH__DISPATCHERS_PER_FAMILY",
  "IKEV2D_GLOBAL__DISPATCH__QUEUE_ORDER", "IKEV2D_GLOBAL__DISPATCH__SESSION_TIMEOUT_MS",
  "IKEV2D_GLOBAL__DISPATCH__EXPIRY_MODE", "IKEV2D_GLOBAL__RUNTIME__POOL_THREADS",
  "IKEV2D_GLOBAL__LOGGING__LEVEL"]

/-- The path of a setting in the name of a variable. -/
def settingOf? (name : String) : Option String :=
  let folded := foldCase name
  if folded.startsWith namePrefix then
    some (".".intercalate ((folded.drop namePrefix.length).toString.splitOn "__"))
  else none

/-- The text given for a setting. -/
def text? (env : Environment) (setting : String) : Option String :=
  (env.entries.find? fun v => settingOf? v.1 = some setting).map (·.2)

/-- A whole number, for which a truth value may stand. -/
def int? (env : Environment) (setting : String) : Option Int := do
  let value ← env.text? setting
  match foldCase value with
  | "true" | "on" | "yes" => some 1
  | "false" | "off" | "no" => some 0
  | _ => Numeral.signed? 64 value.toList

def bool? (env : Environment) (setting : String) : Option Bool := do
  match foldCase (← env.text? setting) with
  | "1" | "true" | "on" | "yes" => some true
  | "0" | "false" | "off" | "no" => some false
  | _ => none

/-- A count; one that is negative counts as zero, which no count may be. -/
def count? (env : Environment) (setting : String) : Option UInt64 :=
  (env.int? setting).map (·.toNat.toUInt64)

/-- A word, or a warning that names the variable. -/
def word? {α : Type} (env : Environment) (setting name : String)
    (parse : String → Except ParseError α) : Option α × List Warning :=
  match (env.text? setting).map parse with
  | none => (none, [])
  | some (.ok a) => (some a, [])
  | some (.error e) => (none, [.variableIgnored name e])

/-- The port, or a number that is given for it and is none. -/
def port (env : Environment) (other : UInt16) : Except Int UInt16 :=
  match env.int? "global.network.port" with
  | none => .ok other
  | some n => if 0 ≤ n ∧ n ≤ 0xffff then .ok n.toNat.toUInt16 else .error n

/-- Puts the settings given in the environment over others. The only error is a port out
of range. -/
def override (env : Environment) (s : Settings) : Except Int (Settings × List Warning) := do
  let port ← env.port s.network.port
  let (order, orderWarnings) := env.word? "global.dispatch.queue_order"
    "IKEV2D_GLOBAL__DISPATCH__QUEUE_ORDER" Discipline.parse
  let (mode, modeWarnings) := env.word? "global.dispatch.expiry_mode"
    "IKEV2D_GLOBAL__DISPATCH__EXPIRY_MODE" ExpiryMode.parse
  let level := (env.text? "global.logging.level").bind fun t => (LogLevel.parse t).toOption
  let network : NetworkSettings :=
    { host4 := (env.text? "global.network.host4").getD s.network.host4
      host6 := (env.text? "global.network.host6").getD s.network.host6
      port
      enableIpv4 := (env.bool? "global.network.enable_ipv4").getD s.network.enableIpv4
      enableIpv6 := (env.bool? "global.network.enable_ipv6").getD s.network.enableIpv6 }
  let endpoints := env.count? "global.netio.endpoints_per_family"
  let dispatchers := env.count? "global.dispatch.dispatchers_per_family"
  let timeout := env.count? "global.dispatch.session_timeout_ms"
  let dispatch : DispatchSettings :=
    { dispatchersPerFamily := dispatchers.getD s.dispatch.dispatchersPerFamily
      queueOrder := order.getD s.dispatch.queueOrder
      sessionTimeoutMs := timeout.getD s.dispatch.sessionTimeoutMs
      expiryMode := mode.getD s.dispatch.expiryMode }
  let threads := env.count? "global.runtime.pool_threads"
  return ({ s with
      network, dispatch
      netio := { s.netio with endpointsPerFamily := endpoints.getD s.netio.endpointsPerFamily }
      runtime := { s.runtime with poolThreads := threads.getD s.runtime.poolThreads }
      logging := { s.logging with level := level.getD s.logging.level } },
    orderWarnings ++ modeWarnings)

end Environment

end SessionDispatch
