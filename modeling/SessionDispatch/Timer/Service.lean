import SessionDispatch.Pool
import SessionDispatch.Timer

/-!
# Timers in time

A timer with the loop that may run on it, and the clock. An advance sets the clock to its new time
at once, past every deadline on the way, and the loop wakes once: however late it is, it makes one
pass, and a repeating event that has missed several periods is handed out one time. The loop is
woken after every other call too, so that an event without delay is handed out then. What a pass
hands out is carried out at once.
-/

namespace SessionDispatch

structure TimerService (α : Type) where
  timer : Timer α := {}
  now : Instant
  running : Bool
  handedOut : Nat := 0

namespace TimerService

variable {α : Type}

def schedule (s : TimerService α) (timeout : Span) (repeats : Bool) (action : α) :
    Nat × TimerService α :=
  let (id, timer) := s.timer.schedule s.now timeout repeats action
  (id, { s with timer })

def cancel (s : TimerService α) (id : Nat) : Bool × TimerService α :=
  let (armed, timer) := s.timer.cancel id
  (armed, { s with timer })

def advance (s : TimerService α) (d : Span) : TimerService α := { s with now := s.now + d }

/-- Starts the loop as a task of a pool. A pool that is shut down takes no task. -/
def start {β : Type} (s : TimerService α) (pool : Pool β) :
    Except Failure (TimerService α × Pool β) :=
  match pool.submit with
  | (.ok _, pool) => .ok ({ s with running := true }, pool)
  | (.error f, _) => .error f

def stop (s : TimerService α) : TimerService α :=
  { s with timer := s.timer.stop, running := false }

/-- The pass that follows a call while the loop runs, and the events it hands out. -/
def pass (s : TimerService α) (carryOut : Timer α → α → Timer α) :
    List (Timer.Event α) × TimerService α :=
  if s.running then
    let (due, timer) := s.timer.pass s.now
    let timer := (due.map (·.action)).foldl carryOut timer
    (due, { s with timer, handedOut := s.handedOut + due.length })
  else ([], s)

end TimerService

end SessionDispatch
