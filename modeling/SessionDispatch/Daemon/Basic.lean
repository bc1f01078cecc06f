import SessionDispatch.Daemon.Task
import SessionDispatch.Endpoint
import SessionDispatch.Pool
import SessionDispatch.Session.Manager
import SessionDispatch.Settings.Configuration

/-!
# Daemons

A daemon serves one or both families. Its loops are tasks of one pool, and the expiries of sessions
are short tasks of the same pool.
-/

namespace SessionDispatch

/-- What serves one family. -/
structure FamilyService where
  manager : SessionManager
  endpoints : List Endpoint := []

namespace FamilyService

def family (s : FamilyService) : Family := s.manager.family

end FamilyService

/-- How the tasks of a daemon ended. Those that `failed`, with an error or in a panic, stand in the
order in which they were started. -/
structure ShutdownReport where
  tasksJoined : Nat
  failed : List (Task × Failure)
  threadsJoined : Nat
  sessionsDropped : Nat
deriving DecidableEq, Repr

namespace ShutdownReport

def isClean (r : ShutdownReport) : Bool := r.failed.isEmpty

end ShutdownReport

namespace Daemon

/-- What is done so that loops end. -/
inductive Order
  | signal (t : Task)
  | stopTimer
  | closeInbound (family : Family)
  | closeOutbound (family : Family)
deriving DecidableEq, Repr

/-- How far a shutdown has come: with the orders that are left to be given, with the tasks that were
waited for and those of them that failed, and last with the threads of the pool. -/
inductive Phase
  | running
  | stopping (left : List Order)
  | joining (joined : Nat) (failed : List (Task × Failure))
  | draining (joined : Nat) (failed : List (Task × Failure)) (threads : Nat)
  | down (report : ShutdownReport)
deriving DecidableEq, Repr

end Daemon

/-- A daemon. The loops in `tasks` stand in the order in which they were started, with their numbers
in the pool, and `expiries` were handed to the pool and are not carried out yet. A record in `hands`
was taken from its queue by a loop that is not done with it. In `reported` the growth of the pool is
left out. -/
structure Daemon where
  configuration : Configuration
  pool : Pool (Except Failure Unit)
  timer : Timer Expiry := {}
  now : Instant
  services : List FamilyService := []
  tasks : List (Task × Nat) := []
  hands : List (Task × Packet) := []
  signals : List Task := []
  expiries : List (Nat × Expiry) := []
  reloads : Nat := 0
  phase : Daemon.Phase := .running
  released : Nat := 0
  reported : List Metric := []

namespace Daemon

def metrics (d : Daemon) : List Metric := d.pool.metrics ++ d.reported

def service? (d : Daemon) (family : Family) : Option FamilyService :=
  d.services.find? (·.family = family)

def manager? (d : Daemon) (family : Family) : Option SessionManager :=
  (d.service? family).map (·.manager)

def endpoints (d : Daemon) (family : Family) : List Endpoint :=
  (d.service? family).elim [] (·.endpoints)

def modifyManagers (d : Daemon) (f : SessionManager → SessionManager) : Daemon :=
  { d with services := d.services.map fun s => { s with manager := f s.manager } }

def modifyManager (d : Daemon) (family : Family) (f : SessionManager → SessionManager) : Daemon :=
  d.modifyManagers fun m => if m.family = family then f m else m

def addEndpoint (d : Daemon) (family : Family) (e : Endpoint) : Daemon :=
  { d with services := d.services.map fun s =>
      if s.family = family then { s with endpoints := s.endpoints ++ [e] } else s }

/-- A count that is kept for each family, over all families. -/
def total (d : Daemon) (count : SessionManager → Nat) : Nat :=
  d.services.foldl (fun n s => n + count s.manager) 0

/-- Sessions live in all families. -/
def sessionCount (d : Daemon) : Nat := d.total (·.table.size)

def report (d : Daemon) (events : List Metric) : Daemon :=
  { d with reported := d.reported ++ events }

/-- Submits a task. Idle workers take what is in line. -/
def submit (d : Daemon) : Option Nat × Daemon :=
  let (job, pool) := d.pool.submit
  (job.toOption, { d with pool := pool.settle fun _ _ => none })

/-- Starts a loop. -/
def spawn (d : Daemon) (t : Task) : Daemon :=
  match d.submit with
  | (some job, d) => { d with tasks := d.tasks ++ [(t, job)] }
  | (none, d) => d

def jobOf? (d : Daemon) (t : Task) : Option Nat := d.tasks.lookup t

/-- Whether a worker is busy with a task of the pool. -/
def isBusyWith (d : Daemon) (job : Nat) : Bool := d.pool.workers.any (·.2 = .running job)

def isRunning (d : Daemon) (t : Task) : Bool := (d.jobOf? t).any d.isBusyWith

/-- A task of the pool ends. Its worker is free again, and idle workers take what is in line. -/
def complete (d : Daemon) (job : Nat) (outcome : Pool.Outcome (Except Failure Unit)) : Daemon :=
  match d.pool.finishTask job outcome with
  | some pool => { d with pool := pool.settle fun _ _ => none }
  | none => d

/-- A loop ends. -/
def finish (d : Daemon) (t : Task) (outcome : Pool.Outcome (Except Failure Unit)) : Daemon :=
  (d.jobOf? t).elim d (d.complete · outcome)

/-- The record that a loop has taken. -/
def hand? (d : Daemon) (t : Task) : Option Packet := d.hands.lookup t

def hold (d : Daemon) (t : Task) (p : Packet) : Daemon := { d with hands := d.hands ++ [(t, p)] }

/-- A loop is done with the record that it has taken. -/
def letGo (d : Daemon) (t : Task) : Daemon := { d with hands := d.hands.filter (·.1 ≠ t) }

/-- What the handle of an ended task tells of a failure. -/
def failureOf : Except Failure (Except Failure Unit) → Option Failure
  | .ok (.ok ()) => none
  | .ok (.error f) | .error f => some f

end Daemon

end SessionDispatch
