import SessionDispatch.Daemon.Start

/-!
# Daemons of one address space

The stack of every thread takes its part of the addresses that a program has. A daemon that is down
has given back those of its workers. A pool that could not be made has not: its workers wait for
ever, and every later start has to do without what their stacks take.
-/

namespace SessionDispatch

/-- What a program can address, and the bytes of it that the stacks of threads that never
end hold. -/
structure AddressSpace where
  capacity : Nat
  lost : Nat := 0
deriving DecidableEq, Repr

namespace AddressSpace

/-- Why no daemon was started. For `noThread`, the pool could not be made for want of a thread. -/
inductive Refusal
  | failed (error : Daemon.StartError)
  | noThread (reason : Failure)
deriving DecidableEq, Repr

def Refusal.message : Refusal → String
  | failed e => e.message
  | noThread reason =>
    "failed to start worker pool: " ++ reason.message ++ reason.source?.elim "" (": " ++ ·.message)

/-- Whether a pool that has so many workers can start one more. What is needed for other things
than stacks is not counted. -/
def hasRoom (a : AddressSpace) (stack workers : Nat) : Bool :=
  a.lost + (workers + 1) * stack ≤ a.capacity

/-- What is left when the creation of a pool ended at a thread that could not be started. -/
def without {α : Type} (a : AddressSpace) (stack : Nat) (left : Pool α) : AddressSpace :=
  { a with lost := a.lost + left.workers.length * stack }

/-- The pool of a daemon, with threads for its loops and for short tasks besides. -/
def createPool (a : AddressSpace) (s : Settings) :
    Except (Pool (Except Failure Unit)) (Pool (Except Failure Unit)) :=
  Pool.create (s.runtime.poolThreads + s.longRunning).toNat s.runtime.growthThreshold.toNat
    (a.hasRoom s.runtime.threadStackSize.toNat)

/-- Starts a daemon. Its pool is made before anything else is started. -/
def start (a : AddressSpace) (h : Handler) (network : Network) (c : Configuration) (now : Instant) :
    Except (Refusal × Option Daemon) Daemon × AddressSpace :=
  let s := c.settings
  if s.network.families = [] then (.error (.failed .noFamily, none), a)
  else
    match a.createPool s with
    | .error left =>
      (.error (.noThread (.io (.os .wouldBlock)), none),
        a.without s.runtime.threadStackSize.toNat left)
    | .ok _ => ((Daemon.start h network c now).mapError fun (e, d) => (.failed e, d), a)

end AddressSpace

end SessionDispatch
