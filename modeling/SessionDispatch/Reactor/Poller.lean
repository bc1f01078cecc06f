import SessionDispatch.Failure

/-!
# Pollers

A poller waits for one of several descriptors to become readable. The system keeps the set of
descriptors that it reports on; the poller keeps a list of those that it watches. Both are changed
by registering and removing, one after the other, and a wait takes one event from the system and
then looks into the list.
-/

namespace SessionDispatch

/-- When a registered descriptor is reported: at every wait while it has input, or once for every
time that it gets input. -/
inductive Trigger
  | level
  | edge
deriving DecidableEq, Repr

/-- What the system sees at an open descriptor, which is broken if it has failed or its other end
has hung up. -/
structure Condition where
  readable : Bool
  broken : Bool
deriving DecidableEq, Repr

namespace Condition

def isReady (c : Condition) : Bool := c.readable || c.broken

end Condition

/-- A descriptor in the system's set, and whether it has got input since it was reported last. -/
structure Registration (δ : Type) where
  descriptor : δ
  trigger : Trigger
  latched : Bool
deriving DecidableEq, Repr

/-- What a wait returns. A descriptor that is reported as closed was removed. -/
inductive Readiness (δ : Type)
  | readable (d : δ)
  | closed (d : δ)
  | idle
deriving DecidableEq, Repr

/-- The system's set and the poller's own list, both in order of registration. -/
structure Poller (δ : Type) where
  registered : List (Registration δ)
  watched : List δ
deriving Repr

namespace Poller

variable {δ : Type} [DecidableEq δ]

def new : Poller δ := ⟨[], []⟩

def isRegistered (p : Poller δ) (d : δ) : Bool := p.registered.any (·.descriptor = d)

/-- First half of registering: the system takes the descriptor into its set. A descriptor that is
ready counts as having got input. -/
def register (p : Poller δ) (d : δ) (trigger : Trigger) (c : Option Condition) :
    Except OsError (Poller δ) :=
  match c with
  | none => .error .badDescriptor
  | some c =>
    if p.isRegistered d then .error .alreadyExists
    else .ok { p with registered := p.registered ++ [⟨d, trigger, c.isReady⟩] }

/-- Second half of registering: the descriptor enters the list. -/
def watch (p : Poller δ) (d : δ) : Poller δ := { p with watched := p.watched ++ [d] }

/-- Registers a descriptor that is in some condition, or not open. -/
def add (p : Poller δ) (d : δ) (trigger : Trigger) (c : Option Condition) :
    Except OsError (Poller δ) :=
  (p.register d trigger c).map (·.watch d)

/-- First half of removing: the descriptor leaves the list. -/
def unwatch (p : Poller δ) (d : δ) : Poller δ := { p with watched := p.watched.filter (· ≠ d) }

/-- Second half of removing: the system takes the descriptor out of its set. -/
def deregister (p : Poller δ) (d : δ) (isOpen : Bool) : Option OsError × Poller δ :=
  if !isOpen then (some .badDescriptor, p)
  else if p.isRegistered d then
    (none, { p with registered := p.registered.filter (·.descriptor ≠ d) })
  else (some .notFound, p)

def remove (p : Poller δ) (d : δ) (isOpen : Bool) : Option OsError × Poller δ :=
  (p.unwatch d).deregister d isOpen

/-- A descriptor gets input. -/
def signal (p : Poller δ) (d : δ) : Poller δ :=
  { p with registered := p.registered.map fun r =>
      if r.descriptor = d then { r with latched := true } else r }

/-- Whether a wait reports a descriptor. -/
def reports (conditions : δ → Condition) (r : Registration δ) : Bool :=
  (conditions r.descriptor).isReady && (r.trigger = .level || r.latched)

/-- First half of a wait: the system hands out one event, which it then forgets. -/
def takeEvent (p : Poller δ) (conditions : δ → Condition) (d : δ) : Option (Poller δ) :=
  if p.registered.any (fun r => r.descriptor = d && reports conditions r) then
    some { p with registered := p.registered.map fun r =>
      if r.descriptor = d then { r with latched := false } else r }
  else none

/-- Second half of a wait: a broken descriptor is removed, any other must be in the list. -/
def judge (p : Poller δ) (conditions : δ → Condition) (d : δ) : Readiness δ × Poller δ :=
  if (conditions d).broken then (.closed d, (p.remove d true).2)
  else if d ∈ p.watched then (.readable d, p)
  else (.idle, p)

/-- A wait that does not block, or that has an event to take. The first registered of several ready
descriptors is reported. -/
def wait (p : Poller δ) (conditions : δ → Condition) : Readiness δ × Poller δ :=
  match p.registered.find? (reports conditions) with
  | none => (.idle, { p with registered := p.registered.map fun r => { r with latched := false } })
  | some r =>
    match p.takeEvent conditions r.descriptor with
    | none => (.idle, p)
    | some p => p.judge conditions r.descriptor

end Poller

end SessionDispatch
