import SessionDispatch.Failure

/-!
# Notifiers

A notifier is a counter that loops wait on. Notifying adds to it, and reading takes from it what is
there or, in semaphore mode, one.
-/

namespace SessionDispatch

/-- What becomes of an attempt: it is done, the system refuses it, or it would have to wait. -/
inductive Attempt (α : Type)
  | done (a : α)
  | refused (e : OsError)
  | blocks
deriving Repr

structure Notifier where
  counter : Nat
  semaphore : Bool
  nonblocking : Bool
deriving DecidableEq, Repr

namespace Notifier

/-- The greatest number that the counter can hold. -/
def maxCounter : Nat := UInt64.size - 2

/-- The value that asks a loop to end. Reads in semaphore mode yield no other. -/
def stopSignal : Nat := 1

def isReadable (n : Notifier) : Bool := 0 < n.counter

/-- An attempt that cannot be made now. -/
def defer {α : Type} (n : Notifier) : Attempt α :=
  if n.nonblocking then .refused .wouldBlock else .blocks

def notify (n : Notifier) (value : Nat) : Attempt Unit × Notifier :=
  if maxCounter < value then (.refused .invalidInput, n)
  else if maxCounter < n.counter + value then (n.defer, n)
  else (.done (), { n with counter := n.counter + value })

def read (n : Notifier) : Attempt Nat × Notifier :=
  if n.counter = 0 then (n.defer, n)
  else if n.semaphore then (.done 1, { n with counter := n.counter - 1 })
  else (.done n.counter, { n with counter := 0 })

/-- Reads, and tells whether a value was read that is expected. -/
def wait (n : Notifier) (expected : Nat) : Attempt Bool × Notifier :=
  match n.read with
  | (.done v, n) => (.done (v = expected), n)
  | (.refused e, n) => (.refused e, n)
  | (.blocks, n) => (.blocks, n)

variable {n n' : Notifier}

/-- A notifier that takes a value counts it. -/
theorem eq_of_notify {value : Nat} (h : n.notify value = (.done (), n')) :
    n' = { n with counter := n.counter + value } := by
  unfold notify defer at h
  split at h
  · cases h
  · split at h
    · split at h <;> cases h
    · exact (Prod.mk.inj h).2.symm

theorem read_of_counter (hs : n.semaphore = false) (hc : 0 < n.counter) :
    n.read = (.done n.counter, { n with counter := 0 }) := by
  simp [read, hs, Nat.ne_of_gt hc]

theorem read_of_semaphore (hs : n.semaphore = true) (hc : 0 < n.counter) :
    n.read = (.done 1, { n with counter := n.counter - 1 }) := by
  simp [read, hs, Nat.ne_of_gt hc]

/-- Whatever a semaphore holds, one read of it yields the order to stop. -/
theorem wait_of_semaphore (hs : n.semaphore = true) (hc : 0 < n.counter) :
    n.wait stopSignal = (.done true, { n with counter := n.counter - 1 }) := by
  rw [wait, read_of_semaphore hs hc]
  rfl

end Notifier

end SessionDispatch
