import SessionDispatch.Text.Fold
import SessionDispatch.Text.ParseError

namespace SessionDispatch

/-- How grave an event must be to be logged, from the least grave. -/
inductive LogLevel
  | trace
  | debug
  | info
  | warn
  | error
deriving DecidableEq, Repr

namespace LogLevel

def name : LogLevel → String
  | trace => "trace"
  | debug => "debug"
  | info => "info"
  | warn => "warn"
  | error => "error"

/-- The level with this name. -/
def ofName? : String → Option LogLevel
  | "trace" => some trace
  | "debug" => some debug
  | "info" => some info
  | "warn" => some warn
  | "error" => some error
  | _ => none

/-- In any case; `warning` is a second name of `warn`. -/
def parse (s : String) : Except ParseError LogLevel :=
  match foldCase s with
  | "warning" => .ok warn
  | word => (ofName? word).elim (.error (.logLevel s)) .ok

def rank : LogLevel → Nat
  | trace => 0
  | debug => 1
  | info => 2
  | warn => 3
  | error => 4

instance : Ord LogLevel := ⟨fun a b => compare a.rank b.rank⟩

@[simp] theorem ofName?_name (l : LogLevel) : ofName? l.name = some l := by cases l <;> rfl

end LogLevel

end SessionDispatch
