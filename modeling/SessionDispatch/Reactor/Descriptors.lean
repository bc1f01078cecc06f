import SessionDispatch.Reactor.Notifier
import SessionDispatch.Reactor.Poller

/-!
# Named descriptors

A poller over notifiers and the read ends of pipes, each under a name. What changes at a descriptor
reaches the poller.
-/

namespace SessionDispatch

inductive Descriptor
  | notifier (n : Notifier)
  | pipe (written hungUp : Bool)
deriving DecidableEq, Repr

namespace Descriptor

def condition : Descriptor → Condition
  | notifier n => ⟨n.isReadable, false⟩
  | pipe written hungUp => ⟨written, hungUp⟩

end Descriptor

structure Descriptors where
  poller : Poller String
  descriptors : List (String × Descriptor)
deriving Repr

namespace Descriptors

def empty : Descriptors := ⟨.new, []⟩

def find? (s : Descriptors) (name : String) : Option Descriptor := s.descriptors.lookup name

def conditionOf (s : Descriptors) (name : String) : Option Condition :=
  (s.find? name).map (·.condition)

/-- Puts a descriptor under a name. -/
def put (s : Descriptors) (name : String) (d : Descriptor) : Descriptors :=
  { s with descriptors := (name, d) :: s.descriptors.filter (·.1 ≠ name) }

/-- Puts a descriptor under a name that has just got input. -/
def signal (s : Descriptors) (name : String) (d : Descriptor) : Descriptors :=
  { s.put name d with poller := s.poller.signal name }

def add (s : Descriptors) (name : String) (trigger : Trigger) : Except OsError Unit × Descriptors :=
  match s.poller.add name trigger (s.conditionOf name) with
  | .ok poller => (.ok (), { s with poller })
  | .error e => (.error e, s)

def remove (s : Descriptors) (name : String) : Except OsError Unit × Descriptors :=
  let (refusal, poller) := s.poller.remove name (s.conditionOf name).isSome
  (refusal.elim (.ok ()) .error, { s with poller })

def wait (s : Descriptors) : Readiness String × Descriptors :=
  let (r, poller) := s.poller.wait fun d => (s.conditionOf d).getD ⟨false, false⟩
  (r, { s with poller })

end Descriptors

end SessionDispatch
