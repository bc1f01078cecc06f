import SessionDispatch.Queue
import SessionDispatch.Text.Numeral

/-!
# The flags of the command line

A parameter takes a value, from the same argument or from the next one; a switch takes none. A
parameter whose value is still to come is settled by the flag after it or by the end of the line, so
that errors come in the order of the line.
-/

namespace SessionDispatch.CommandLine

inductive Parameter
  | config
  | host4
  | host6
  | port
  | logLevel
  | queueOrder
  | sessionTimeout
deriving DecidableEq, Repr

inductive Switch
  | validate
  | printDefault
  | help
  | version
deriving DecidableEq, Repr

inductive Flag
  | parameter (p : Parameter)
  | switch (s : Switch)
deriving DecidableEq, Repr

namespace Flag

def ofLong? : String → Option Flag
  | "config" => some (parameter .config)
  | "host4" => some (parameter .host4)
  | "host6" => some (parameter .host6)
  | "port" => some (parameter .port)
  | "log-level" => some (parameter .logLevel)
  | "queue-order" => some (parameter .queueOrder)
  | "session-timeout-ms" => some (parameter .sessionTimeout)
  | "validate" => some (switch .validate)
  | "print-default-config" => some (switch .printDefault)
  | "help" => some (switch .help)
  | "version" => some (switch .version)
  | _ => none

def ofShort? : Char → Option Flag
  | 'c' => some (parameter .config)
  | 'h' => some (switch .help)
  | 'V' => some (switch .version)
  | _ => none

end Flag

/-- Why a command line yields no flags: a value is missing or empty (`invalidValue`), is none of
those that its parameter takes (`valueValidation`) or is given to a switch (`tooManyValues`), or a
flag is given twice (`argumentConflict`). Asking for help or for the version is such a reason too.
-/
inductive UsageError
  | unknownArgument
  | invalidValue
  | valueValidation
  | argumentConflict
  | tooManyValues
  | displayHelp
  | displayVersion
deriving DecidableEq, Repr

/-- What a command line asks for. -/
structure Flags where
  config : String := "ikev2d.toml"
  host4 : Option String := none
  host6 : Option String := none
  port : Option UInt16 := none
  logLevel : Option String := none
  queueOrder : Option Discipline := none
  sessionTimeoutMs : Option UInt64 := none
  validate : Bool := false
  printDefaultConfig : Bool := false
deriving DecidableEq, Repr

namespace Flags

/-- Takes the value of a parameter. -/
def setParameter (flags : Flags) (value : String) : Parameter → Except UsageError Flags
  | .config => if value = "" then .error .invalidValue else .ok { flags with config := value }
  | .host4 => .ok { flags with host4 := some value }
  | .host6 => .ok { flags with host6 := some value }
  | .port =>
    match Numeral.signed? 64 value.toList with
    | some (.ofNat n) =>
      if n ≤ 0xffff then .ok { flags with port := some n.toUInt16 } else .error .valueValidation
    | _ => .error .valueValidation
  | .logLevel => .ok { flags with logLevel := some value }
  | .queueOrder =>
    match Discipline.parse value with
    | .ok d => .ok { flags with queueOrder := some d }
    | .error _ => .error .valueValidation
  | .sessionTimeout =>
    match Numeral.unsigned? (UInt64.size - 1) value.toList with
    | some n => .ok { flags with sessionTimeoutMs := some n.toUInt64 }
    | none => .error .valueValidation

def setSwitch (flags : Flags) : Switch → Except UsageError Flags
  | .validate => .ok { flags with validate := true }
  | .printDefault => .ok { flags with printDefaultConfig := true }
  | .help => .error .displayHelp
  | .version => .error .displayVersion

end Flags

/-- How far a command line has been read: the flags that have taken effect, the last parameter if
its value stands apart from it, with the value once it has come, and whether a double hyphen has
been read, after which there are no flags. -/
structure Reading where
  flags : Flags := {}
  given : List Flag := []
  pending : Option (Parameter × Option String) := none
  ended : Bool := false

namespace Reading

/-- Notes that a flag takes effect, which it may do once. -/
def give (r : Reading) (f : Flag) : Except UsageError Reading :=
  if f ∈ r.given then .error .argumentConflict else .ok { r with given := f :: r.given }

def assign (r : Reading) (p : Parameter) (value : String) : Except UsageError Reading := do
  let r ← r.give (.parameter p)
  return { r with flags := ← r.flags.setParameter value p }

/-- Settles the parameter whose value was to come. -/
def settle (r : Reading) : Except UsageError Reading :=
  match r.pending with
  | none => .ok r
  | some (_, none) => .error .invalidValue
  | some (p, some value) => { r with pending := none }.assign p value

/-- A switch takes effect. -/
def turnOn (r : Reading) (s : Switch) : Except UsageError Reading := do
  let r ← r.settle
  match s with
  | .help => .error .displayHelp
  | .version => .error .displayVersion
  | s => do
    let r ← r.give (.switch s)
    return { r with flags := ← r.flags.setSwitch s }

/-- A parameter with its value, or with the value still to come. -/
def parameter (r : Reading) (p : Parameter) (value : Option String) :
    Except UsageError Reading := do
  let r ← r.settle
  match value with
  | some value => r.assign p value
  | none => return { r with pending := some (p, none) }

/-- An argument that starts with two hyphens, without them. -/
def long (r : Reading) (text : List Char) : Except UsageError Reading :=
  let name := String.ofList (text.takeWhile (· ≠ '='))
  let value := match text.dropWhile (· ≠ '=') with
    | [] => none
    | _ :: value => some (String.ofList value)
  match Flag.ofLong? name, value with
  | none, _ => .error .unknownArgument
  | some (.switch _), some _ => .error .tooManyValues
  | some (.switch s), none => r.turnOn s
  | some (.parameter p), value => r.parameter p value

/-- An argument that starts with one hyphen, without it: switches, and perhaps a parameter with its
value, before which an equals sign may stand. -/
def short (r : Reading) : List Char → Except UsageError Reading
  | [] => .ok r
  | c :: rest =>
    match Flag.ofShort? c with
    | none => .error .unknownArgument
    | some (.switch s) => do (← r.turnOn s).short rest
    | some (.parameter p) =>
      match rest with
      | [] => r.parameter p none
      | '=' :: value => r.parameter p (some (String.ofList value))
      | value => r.parameter p (some (String.ofList value))

/-- An argument that is no flag: the value that the last parameter waits for. -/
def plain (r : Reading) (text : String) : Except UsageError Reading :=
  match r.pending with
  | some (p, none) => .ok { r with pending := some (p, some text) }
  | _ => .error .unknownArgument

def argument (r : Reading) (text : String) : Except UsageError Reading :=
  if r.ended then .error .unknownArgument
  else match text.toList with
    | ['-', '-'] => .ok { r with ended := true }
    | '-' :: '-' :: rest => r.long rest
    | '-' :: c :: rest => r.short (c :: rest)
    | _ => r.plain text

end Reading

/-- Reads a command line without the name of the program. -/
def parse (args : List String) : Except UsageError Flags := do
  let r ← args.foldlM Reading.argument {}
  return (← r.settle).flags

end SessionDispatch.CommandLine
