import SessionDispatch.Reactor.Poller

/-!
# Pollers in use by several threads

A registration takes effect in the system's set first and in the poller's list after that, a removal
the other way round, and a wait takes an event from the system before it looks into the list. Other
threads may come in between. An `Act` is what one thread does without interruption, or what happens
to a descriptor. All descriptors are open.
-/

namespace SessionDispatch

namespace Watchers

/-- Where a thread is: between the two halves of a registration or of a removal, which a wait that
makes it reports when it is done, or with an event of a descriptor that was in this condition. -/
inductive Stage (δ : Type)
  | free
  | adding (d : δ)
  | removing (d : δ) (waits : Bool)
  | judging (d : δ) (c : Condition)
deriving DecidableEq, Repr

/-- The descriptor that is in one of list and set at the most, until the thread goes on. -/
def Stage.moved? {δ : Type} : Stage δ → Option δ
  | adding d | removing d _ => some d
  | free | judging _ _ => none

/-- What one thread does without interruption, or what becomes of a descriptor. A registration comes
to the system first and to the list then, and a wait takes an event before it looks into the list.
-/
inductive Act (δ : Type)
  | turn (d : δ) (c : Condition) (noted : Bool)
  | register (thread : Nat) (d : δ) (trigger : Trigger)
  | watch (thread : Nat)
  | unwatch (thread : Nat) (d : δ)
  | deregister (thread : Nat)
  | take (thread : Nat) (d : δ)
  | judge (thread : Nat)
deriving DecidableEq, Repr

end Watchers

structure Watchers (δ : Type) where
  poller : Poller δ := .new
  conditions : δ → Condition
  stages : List (Watchers.Stage δ)
  returned : List (Readiness δ) := []

namespace Watchers

variable {δ : Type}

/-- Threads that are about to use a new poller. -/
def start (conditions : δ → Condition) (threads : Nat) : Watchers δ where
  conditions
  stages := List.replicate threads .free

def setStage (s : Watchers δ) (thread : Nat) (stage : Stage δ) : Watchers δ :=
  { s with stages := s.stages.set thread stage }

variable [DecidableEq δ]

/-- One act, if it can happen. -/
def act (s : Watchers δ) : Act δ → Option (Watchers δ)
  | .turn d c noted => some { s with
      poller := if noted then s.poller.signal d else s.poller
      conditions := fun e => if e = d then c else s.conditions e }
  | .register t d trigger =>
    match s.stages[t]?, s.poller.register d trigger (some (s.conditions d)) with
    | some .free, .ok poller => some ({ s with poller }.setStage t (.adding d))
    | some .free, .error _ => some s
    | _, _ => none
  | .watch t =>
    match s.stages[t]? with
    | some (.adding d) => some ({ s with poller := s.poller.watch d }.setStage t .free)
    | _ => none
  | .unwatch t d =>
    match s.stages[t]? with
    | some .free => some ({ s with poller := s.poller.unwatch d }.setStage t (.removing d false))
    | _ => none
  | .deregister t =>
    match s.stages[t]? with
    | some (.removing d waits) =>
      some ({ s with
        poller := (s.poller.deregister d true).2
        returned :=
          if waits then s.returned ++ [Readiness.closed d] else s.returned }.setStage t .free)
    | _ => none
  | .take t d =>
    match s.stages[t]?, s.poller.takeEvent s.conditions d with
    | some .free, some poller => some ({ s with poller }.setStage t (.judging d (s.conditions d)))
    | _, _ => none
  | .judge t =>
    match s.stages[t]? with
    | some (.judging d c) =>
      if c.broken then some ({ s with poller := s.poller.unwatch d }.setStage t (.removing d true))
      else some ({ s with
        returned := s.returned ++ [(s.poller.judge (fun _ => c) d).1] }.setStage t .free)
    | _ => none

/-- A run of acts; none if one of them cannot happen. -/
def run (s : Watchers δ) (acts : List (Act δ)) : Option (Watchers δ) := acts.foldlM act s

end Watchers

end SessionDispatch
