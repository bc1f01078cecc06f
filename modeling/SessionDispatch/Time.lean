/-!
# Time

Lengths of time and points of a clock that never goes back, both counted in nanoseconds.
-/

namespace SessionDispatch

/-- A length of time in nanoseconds. -/
abbrev Span := Nat

namespace Span

def ofMicros (n : Nat) : Span := n * 1000

def ofMillis (n : Nat) : Span := n * 1000000

def ofSecs (n : Nat) : Span := n * 1000000000

/-- The whole milliseconds of a span. -/
def millis (d : Span) : Nat := d / 1000000

@[simp] theorem millis_ofMillis (n : Nat) : millis (ofMillis n) = n :=
  Nat.mul_div_cancel n (by decide)

/-- The longest span that a caller can ask for. -/
def longest : Span := ofSecs (UInt64.size - 1) + 999999999

end Span

/-- A reading of the clock in nanoseconds. -/
abbrev Instant := Nat

namespace Instant

/-- The last reading that the clock can show. -/
def latest : Instant := (UInt64.size / 2 - 1) * 1000000000 + 999999999

/-- A later instant, if the clock can show it. -/
def after? (t : Instant) (d : Span) : Option Instant :=
  if t + d ≤ latest then some (t + d) else none

end Instant

end SessionDispatch
