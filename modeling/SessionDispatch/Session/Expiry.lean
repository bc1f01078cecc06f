import SessionDispatch.Text.Fold
import SessionDispatch.Text.ParseError
import SessionDispatch.Time

namespace SessionDispatch

/-- When the expiry of a session is put off: never after its creation, or at every packet. -/
inductive ExpiryMode
  | fixed
  | sliding
deriving DecidableEq, Repr, Inhabited

namespace ExpiryMode

def name : ExpiryMode → String
  | fixed => "fixed"
  | sliding => "sliding"

def ofName? : String → Option ExpiryMode
  | "fixed" => some fixed
  | "sliding" => some sliding
  | _ => none

def parse (s : String) : Except ParseError ExpiryMode :=
  (ofName? (foldCase s)).elim (.error (.expiryMode s)) .ok

@[simp] theorem ofName?_name (m : ExpiryMode) : ofName? m.name = some m := by cases m <;> rfl

end ExpiryMode

/-- How long sessions live. A change holds for the timers armed after it. -/
structure ExpiryPolicy where
  timeoutMs : UInt64
  mode : ExpiryMode
deriving DecidableEq, Repr

namespace ExpiryPolicy

/-- The timeout in whole milliseconds, of which a policy keeps the lowest 64 bits. -/
def ofSpan (timeout : Span) (mode : ExpiryMode) : ExpiryPolicy := ⟨timeout.millis.toUInt64, mode⟩

def default : ExpiryPolicy := ⟨3000, .fixed⟩

instance : Inhabited ExpiryPolicy := ⟨default⟩

def timeout (p : ExpiryPolicy) : Span := .ofMillis p.timeoutMs.toNat

def describe (p : ExpiryPolicy) : String :=
  let sliding := decide (p.mode = .sliding)
  s!"ExpiryPolicy \x7b timeout_ms: {p.timeoutMs}, sliding: {sliding} \x7d"

end ExpiryPolicy

end SessionDispatch
