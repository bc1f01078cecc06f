import SessionDispatch.Session.Manager

/-!
# Sessions in time

The sessions of a family together with the timer that ends them and the clock. After every call the
timer makes one pass, and what it hands out is carried out at once.
-/

namespace SessionDispatch

structure SessionService where
  manager : SessionManager
  timer : Timer Expiry := {}
  now : Instant
  metrics : List Metric := []

namespace SessionService

inductive Call
  | dispatch (p : Packet)
  | advance (d : Span)
  | setPolicy (p : ExpiryPolicy)
  | remove (k : PeerKey)
  | clear
deriving DecidableEq, Repr

def dispatch (s : SessionService) (h : Handler) (p : Packet) : Dispatched × SessionService :=
  let (d, manager, timer, metrics) := s.manager.dispatch s.timer s.now h p
  (d, { s with manager, timer, metrics := s.metrics ++ metrics })

/-- Dispatches what the inbound queue holds. -/
def dispatchAll (s : SessionService) (h : Handler) : SessionService :=
  let (manager, timer, metrics) := s.manager.dispatchAll s.timer s.now h
  { s with manager, timer, metrics := s.metrics ++ metrics }

/-- The timer of a session has run out. -/
def expire (s : SessionService) (e : Expiry) : SessionService :=
  let (manager, metrics) := s.manager.expire e
  { s with manager, metrics := s.metrics ++ metrics }

/-- One pass of the timer, with what it hands out. -/
def pass (s : SessionService) : SessionService :=
  let (due, timer) := s.timer.pass s.now
  let s := { s with timer, metrics := s.metrics ++ due.map fun _ => .timerFired }
  (due.map (·.action)).foldl expire s

/-- A call, and what it tells of a record. -/
def call (s : SessionService) (h : Handler) : Call → Option Dispatched × SessionService
  | .dispatch p =>
    let (d, s) := s.dispatch h p
    (some d, s)
  | .advance d => (none, { s with now := s.now + d })
  | .setPolicy policy => (none, { s with manager := { s.manager with policy } })
  | .remove k => (none, { s with manager := s.manager.remove k })
  | .clear => (none, { s with manager := s.manager.clear.2 })

/-- A call with the pass that follows it. -/
def step (s : SessionService) (h : Handler) (c : Call) : SessionService := (s.call h c).2.pass

def run (s : SessionService) (h : Handler) (calls : List Call) : SessionService :=
  calls.foldl (fun s c => s.step h c) s

end SessionService

end SessionDispatch
