import SessionDispatch.Time

/-!
# Timers

Armed events keep the time that remains to them and the instant at which it was last brought up to
date. A pass charges the time since then to every event and hands out those that have none left:
one-shot events leave the list, repeating ones start a new period. What an event is armed for is a
value of any type.
-/

namespace SessionDispatch

namespace Timer

/-- Repeating events have no shorter period than this. -/
def minPeriod : Span := .ofMillis 1

/-- The deadline of an event whose own lies past the end of the clock is this far away. -/
def farFuture : Span := .ofSecs (100 * 365 * 24 * 60 * 60)

/-- An armed event. Its `checkpoint` is when `remaining` was last brought up to date, and the count
in `fired` stops at the greatest number of 32 bits. -/
structure Event (α : Type) where
  id : Nat
  timeout : Span
  remaining : Span
  checkpoint : Instant
  repeats : Bool
  fired : Nat
  action : α
deriving DecidableEq, Repr

namespace Event

variable {α : Type}

/-- An event that is armed now. -/
def arm (id : Nat) (now : Instant) (timeout : Span) (repeats : Bool) (action : α) : Event α where
  id
  timeout := if repeats then max timeout minPeriod else timeout
  remaining := if repeats then max timeout minPeriod else timeout
  checkpoint := now
  repeats
  fired := 0
  action

def deadline (e : Event α) : Instant :=
  ((Instant.after? e.checkpoint e.remaining).orElse
    fun _ => Instant.after? e.checkpoint farFuture).getD e.checkpoint

/-- Charges the time up to now; tells whether the event is due. -/
def advance (e : Event α) (now : Instant) : Bool × Event α :=
  let remaining := e.remaining - (now - e.checkpoint)
  if remaining = 0 then
    (true, { e with
      remaining := if e.repeats then e.timeout else 0
      checkpoint := now
      fired := min (e.fired + 1) (UInt32.size - 1) })
  else (false, { e with remaining, checkpoint := now })

/-- A one-shot event that was handed out. -/
def isSpent (e : Event α) : Bool := !e.repeats && 0 < e.fired

end Event

end Timer

/-- The events of a timer stand in the order in which a pass hands them out. -/
structure Timer (α : Type) where
  events : List (Timer.Event α) := []
  nextId : Nat := 1
  stopped : Bool := false
deriving Repr

namespace Timer

variable {α : Type}

instance : Inhabited (Timer α) := ⟨{}⟩

def pending (t : Timer α) : Nat := t.events.length

def isScheduled (t : Timer α) (id : Nat) : Bool := t.events.any (·.id = id)

/-- How often an event that is still armed was handed out. -/
def firedCount? (t : Timer α) (id : Nat) : Option Nat := (t.events.find? (·.id = id)).map (·.fired)

/-- Halves the part of a list in which a binary search still looks, `size` elements from `base` on,
as long as it has more than one element. -/
def narrow (p : Nat → Bool) : (limit base size : Nat) → Nat
  | 0, base, _ => base
  | limit + 1, base, size =>
    if size ≤ 1 then base
    else narrow p limit (if p (base + size / 2) then base + size / 2 else base) (size - size / 2)

/-- Where a binary search finds the end of the elements with a property. Unless they stand before
all others, that may be anywhere. -/
def partitionPoint {β : Type} (p : β → Bool) (xs : List β) : Nat :=
  let base := narrow (fun i => xs[i]?.any p) xs.length 0 xs.length
  if xs[base]?.any p then base + 1 else base

/-- Puts an event behind those with no later deadline, as far as a binary search finds them. -/
def insert (events : List (Event α)) (e : Event α) : List (Event α) :=
  let place := partitionPoint (·.deadline ≤ e.deadline) events
  events.take place ++ e :: events.drop place

/-- Arms an event and returns its number. -/
def schedule (t : Timer α) (now : Instant) (timeout : Span) (repeats : Bool) (action : α) :
    Nat × Timer α :=
  (t.nextId, { t with
    events := insert t.events (.arm t.nextId now timeout repeats action)
    nextId := t.nextId + 1 })

/-- Disarms an event; tells whether it was armed. -/
def cancel (t : Timer α) (id : Nat) : Bool × Timer α :=
  (t.isScheduled id, { t with events := t.events.eraseP (·.id = id) })

/-- Hands out the events that are due now, in list order, and brings all others up to date. -/
def pass (t : Timer α) (now : Instant) : List (Event α) × Timer α :=
  let advanced := t.events.map (·.advance now)
  let left := (advanced.map (·.2)).filter (!·.isSpent)
  ((advanced.filter (·.1)).map (·.2),
    { t with events := left.mergeSort fun a b => a.remaining ≤ b.remaining })

/-- After this no pass takes place. -/
def stop (t : Timer α) : Timer α := { t with stopped := true }

def describe (t : Timer α) : String :=
  s!"TimerEngine \x7b pending: {t.pending}, stopped: {t.stopped} \x7d"

theorem mem_insert {events : List (Event α)} {e x : Event α} :
    x ∈ insert events e ↔ x = e ∨ x ∈ events := by
  unfold insert
  generalize partitionPoint (·.deadline ≤ e.deadline) events = place
  have h : x ∈ events ↔ x ∈ events.take place ∨ x ∈ events.drop place := by
    rw [← List.mem_append, List.take_append_drop]
  simp only [List.mem_append, List.mem_cons, h]
  constructor
  · rintro (hx | hx | hx)
    · exact .inr (.inl hx)
    · exact .inl hx
    · exact .inr (.inr hx)
  · rintro (hx | hx | hx)
    · exact .inr (.inl hx)
    · exact .inl hx
    · exact .inr (.inr hx)

theorem length_insert (events : List (Event α)) (e : Event α) :
    (insert events e).length = events.length + 1 := by
  unfold insert
  rw [List.length_append, List.length_cons, ← Nat.add_assoc, ← List.length_append,
    List.take_append_drop]

theorem pending_schedule (t : Timer α) (now : Instant) (timeout : Span) (repeats : Bool)
    (action : α) :
    (t.schedule now timeout repeats action).2.pending = t.pending + 1 := length_insert ..

end Timer

end SessionDispatch
