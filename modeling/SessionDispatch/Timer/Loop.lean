import SessionDispatch.Timer

/-!
# The timer loop

One thread plans towards the nearest deadline, sleeps until then or until it is notified, and makes
a pass. Other threads arm, disarm and stop; each changes the state under the lock and sends its
notification after it. An event counts from when it is made, which is before its maker gets the lock
and arms it. An `Act` is what one thread does without interruption.
-/

namespace SessionDispatch.Timer

/-- Where the loop's thread is. A woken one has yet to get the lock, and one that is dispatching has
released it. -/
inductive Phase (α : Type)
  | planning
  | idle
  | asleep (deadline : Instant)
  | idleWoken
  | woken (deadline : Instant) (timedOut : Bool)
  | dispatching (due : List (Event α))
  | ended
deriving Repr

/-- A timer with the events that were made and are not armed yet, the deadline that the loop sleeps
towards, the flag for an earlier event armed since, and the number of notifications still to be
sent. -/
structure Loop (α : Type) where
  timer : Timer α
  made : List (Event α)
  now : Instant
  awaiting : Option Instant
  fallThrough : Bool
  notices : Nat
  phase : Phase α
deriving Repr

namespace Loop

variable {α : Type}

inductive Act (α : Type)
  | make (timeout : Span) (repeats : Bool) (action : α)
  | arm (position : Nat)
  | cancel (id : Nat)
  | shutdown
  | notify
  | tick (d : Span)
  | plan
  | timeOut
  | stir
  | resume
  | dispatched
deriving Repr

def start (now : Instant) : Loop α := ⟨{}, [], now, none, false, 0, .planning⟩

/-- The pass after a sleep. -/
def evaluate (l : Loop α) : Loop α :=
  let (due, timer) := l.timer.pass l.now
  { l with timer, phase := if due.isEmpty then .planning else .dispatching due }

/-- The end of a sleep: the flags are cleared, and a pass follows unless the timer was stopped. -/
def leaveSleep (l : Loop α) : Loop α :=
  let l := { l with awaiting := none, fallThrough := false }
  if l.timer.stopped then { l with phase := .ended } else l.evaluate

/-- One act, if it can happen. -/
def act (l : Loop α) : Act α → Option (Loop α)
  | .make timeout repeats action =>
    some { l with
      timer := { l.timer with nextId := l.timer.nextId + 1 }
      made := l.made ++ [.arm l.timer.nextId l.now timeout repeats action] }
  | .arm position =>
    l.made[position]?.map fun e => { l with
      timer := { l.timer with events := insert l.timer.events e }
      made := l.made.eraseIdx position
      fallThrough := l.fallThrough || l.awaiting.any (e.deadline < ·)
      notices := l.notices + 1 }
  | .cancel id => some { l with timer := (l.timer.cancel id).2 }
  | .shutdown => some { l with timer := l.timer.stop, notices := l.notices + 1 }
  | .notify =>
    if l.notices = 0 then none
    else
      let phase := match l.phase with
        | .idle => .idleWoken
        | .asleep deadline => .woken deadline false
        | phase => phase
      some { l with notices := l.notices - 1, phase }
  | .tick d => some { l with now := l.now + d }
  | .plan =>
    match l.phase with
    | .planning =>
      if l.timer.stopped then some { l with phase := .ended }
      else match l.timer.events.head? with
        | none => some { l with phase := .idle }
        | some e =>
          let l := { l with awaiting := some e.deadline }
          if l.fallThrough then some l.leaveSleep else some { l with phase := .asleep e.deadline }
    | _ => none
  | .timeOut =>
    match l.phase with
    | .asleep deadline =>
      if deadline ≤ l.now then some { l with phase := .woken deadline true } else none
    | _ => none
  | .stir =>
    match l.phase with
    | .asleep deadline => some { l with phase := .woken deadline false }
    | .idle => some { l with phase := .idleWoken }
    | _ => none
  | .resume =>
    match l.phase with
    | .idleWoken => some { l with phase := .planning }
    | .woken deadline timedOut =>
      if timedOut || l.timer.stopped || l.fallThrough then some l.leaveSleep
      else some { l with phase := .asleep deadline }
    | _ => none
  | .dispatched =>
    match l.phase with
    | .dispatching _ => some { l with phase := .planning }
    | _ => none

/-- A run of acts; none if one of them cannot happen. -/
def run (l : Loop α) (acts : List (Act α)) : Option (Loop α) := acts.foldlM act l

end Loop

end SessionDispatch.Timer
