import SessionDispatch.Failure
import SessionDispatch.Telemetry.Metrics

/-!
# Worker pools

Tasks wait in line and are taken by workers, oldest first. A worker that finds no task goes to
sleep; every submission wakes one, and every stop wakes all. A task counts as outstanding from its
submission until its worker is free again. A submission that leaves more tasks outstanding than the
threshold adds a worker. A pool that is stopping takes no tasks, finishes those in line, and lets
its workers go.

An `Act` is what one thread does without interruption. Submissions and stops are not of one piece: a
submission queues its task, then tells a worker, then adds one, and a stop forbids submissions
before it wakes the workers. What tasks do between being started and being finished is not the
pool's business; they may submit others.
-/

namespace SessionDispatch

namespace Pool

/-- How a task ended: with a value, or in a panic. -/
abbrev Outcome (α : Type) := Except String α

/-- The message of a panic whose payload is no text. -/
def opaquePanic : String := "non-string panic payload"

/-- What an outcome is to the holder of the task's handle. -/
def Outcome.deliver {α : Type} : Outcome α → Except Failure α
  | .ok a => .ok a
  | .error panic => .error (.taskPanicked panic)

/-- What a task has left for its handle: the outcome, from when it is sent until it is taken. When
the task's closure is gone, nothing more can be sent. -/
structure Slot (α : Type) where
  outcome : Option (Outcome α) := none
  closed : Bool := false
deriving Repr

/-- What a worker does. When the task has `sent` its outcome its closure is still there, and while
it is `ending` it still counts as outstanding. -/
inductive Work
  | idle
  | asleep
  | running (task : Nat)
  | sent (task : Nat)
  | ending (task : Nat)
deriving DecidableEq, Repr

namespace Work

/-- Whether a worker has a task that counts as outstanding. -/
def isBusy : Work → Bool
  | idle | asleep => false
  | running _ | sent _ | ending _ => true

/-- How many acts of a worker are to come at most until it goes, sleeps or asks for another task. -/
def effort (stopping : Bool) : Work → Nat
  | idle => 1
  | asleep => if stopping then 2 else 0
  | running _ => 4
  | sent _ => 3
  | ending _ => 2

end Work

/-- What one thread does without interruption. A submission queues its task, tells a worker of it
and, above the threshold, comes to the list of workers and adds one if a thread can be started. A
worker starts the oldest task or sleeps; at the end of a task the outcome is sent, the closure is
dropped, and the worker is free again. What stops the pool wakes all workers, and a shutdown takes
the list of those to wait for. -/
inductive Act (α : Type)
  | submit
  | notify (woken : Option Nat)
  | grow
  | spawn (started : Bool)
  | start (worker : Nat)
  | sleep (worker : Nat)
  | finish (worker : Nat) (outcome : Outcome α)
  | close (worker : Nat)
  | release (worker : Nat)
  | exit (worker : Nat)
  | stop
  | rouse
  | takeHandles
  | take (task : Nat)
deriving Repr

/-- Whether an act belongs to the pool's own work, which goes on without any call from outside. -/
def Act.isOwn {α : Type} : Act α → Bool
  | submit | stop | takeHandles | take _ => false
  | _ => true

end Pool

/-- A pool. The tasks in its queue stand oldest first, and of its workers those that have been
without a task longest. The counts of `notices`, `growing` and `alarms` are of submissions that have
not told a worker, or not come to the list of workers, and of stops that have not woken them; while
`spawning`, a submission has the list of workers for itself. A shutdown waits for the workers in
`handles`. -/
structure Pool (α : Type) where
  threshold : Nat
  stopping : Bool
  queue : List Nat
  outstanding : Nat
  workers : List (Nat × Pool.Work)
  handles : List Nat
  nextWorker : Nat
  nextTask : Nat
  notices : Nat
  growing : Nat
  spawning : Bool
  alarms : Nat
  slots : List (Nat × Pool.Slot α)
  metrics : List Metric := []
deriving Repr

namespace Pool

variable {α : Type}

/-- A pool of workers that were just started. -/
def withWorkers (threshold count : Nat) : Pool α where
  threshold
  stopping := false
  queue := []
  outstanding := 0
  workers := (List.range count).map (·, .idle)
  handles := List.range count
  nextWorker := count
  nextTask := 0
  notices := 0
  growing := 0
  spawning := false
  alarms := 0
  slots := []

/-- Starts a pool. Where a worker's thread cannot be started the pool is not made, and what is left
is the state that the workers before it share. -/
def create (threads threshold : Nat) (canStart : Nat → Bool) : Except (Pool α) (Pool α) :=
  let wanted := max threads 1
  match (List.range wanted).find? (!canStart ·) with
  | some failed => .error { withWorkers threshold failed with nextWorker := failed + 1 }
  | none => .ok (withWorkers threshold wanted)

def new (threads threshold : Nat) : Pool α := withWorkers threshold (max threads 1)

def workerCount (p : Pool α) : Nat := p.handles.length

def slot (p : Pool α) (task : Nat) : Slot α := (p.slots.lookup task).getD {}

def setSlot (p : Pool α) (task : Nat) (s : Slot α) : Pool α :=
  { p with slots := p.slots.map fun (t, old) => if t = task then (t, s) else (t, old) }

def workOf? (p : Pool α) (worker : Nat) : Option Work := p.workers.lookup worker

def setWork (p : Pool α) (worker : Nat) (w : Work) : Pool α :=
  { p with workers := p.workers.map fun (n, old) => if n = worker then (n, w) else (n, old) }

/-- Takes a task, unless the pool is stopping. To tell a worker, and to add one, comes later. -/
def submit (p : Pool α) : Except Failure Nat × Pool α :=
  if p.stopping then (.error .poolClosed, p)
  else (.ok p.nextTask, { p with
    queue := p.queue ++ [p.nextTask]
    outstanding := p.outstanding + 1
    nextTask := p.nextTask + 1
    notices := p.notices + 1
    growing := if p.threshold < p.outstanding + 1 then p.growing + 1 else p.growing
    slots := p.slots ++ [(p.nextTask, {})] })

/-- What the handle of a task gives: its outcome once, nothing while the outcome may still come, and
after that only that the task is lost. -/
def take (p : Pool α) (task : Nat) : Option (Except Failure α) × Pool α :=
  match (p.slot task).outcome with
  | some outcome => (some outcome.deliver, p.setSlot task { p.slot task with outcome := none })
  | none => (if (p.slot task).closed then some (.error .taskLost) else none, p)

/-- A submission comes to the list of workers. It keeps others from the list until its worker
is added. -/
def grow (p : Pool α) : Pool α :=
  { p with growing := p.growing - 1, spawning := !p.stopping }

/-- Adds a worker, if its thread can be started. Its number is used up in either case. -/
def spawn (p : Pool α) (started : Bool) : Pool α :=
  if started then { p with
    spawning := false
    nextWorker := p.nextWorker + 1
    workers := p.workers ++ [(p.nextWorker, .idle)]
    handles := p.handles ++ [p.nextWorker]
    metrics := p.metrics ++ [.poolGrew (p.handles.length + 1)] }
  else { p with spawning := false, nextWorker := p.nextWorker + 1 }

/-- From now on the pool takes no tasks. -/
def halt (p : Pool α) : Pool α := { p with stopping := true, alarms := p.alarms + 1 }

/-- Wakes all workers. -/
def rouse (p : Pool α) : Pool α :=
  { p with
    alarms := p.alarms - 1
    workers := p.workers.map fun (n, w) => (n, if w = .asleep then .idle else w) }

/-- One act, if it can happen. -/
def act (p : Pool α) : Act α → Option (Pool α)
  | .submit => some p.submit.2
  | .notify woken =>
    if p.notices = 0 then none
    else
      let p := { p with notices := p.notices - 1 }
      match woken with
      | some worker =>
        if p.workOf? worker = some .asleep then some (p.setWork worker .idle) else none
      | none => if p.workers.any (·.2 = .asleep) then none else some p
  | .grow => if p.growing = 0 ∨ p.spawning then none else some p.grow
  | .spawn started => if p.spawning then some (p.spawn started) else none
  | .start worker =>
    match p.workOf? worker, p.queue with
    | some .idle, task :: rest => some ({ p with queue := rest }.setWork worker (.running task))
    | _, _ => none
  | .sleep worker =>
    match p.workOf? worker with
    | some .idle => if p.stopping ∨ p.queue ≠ [] then none else some (p.setWork worker .asleep)
    | _ => none
  | .finish worker outcome =>
    match p.workOf? worker with
    | some (.running task) =>
      some ((p.setSlot task { p.slot task with outcome }).setWork worker (.sent task))
    | _ => none
  | .close worker =>
    match p.workOf? worker with
    | some (.sent task) =>
      some ((p.setSlot task { p.slot task with closed := true }).setWork worker (.ending task))
    | _ => none
  | .release worker =>
    match p.workOf? worker with
    | some (.ending _) =>
      some { p with
        outstanding := p.outstanding - 1
        workers := p.workers.filter (·.1 ≠ worker) ++ [(worker, .idle)] }
    | _ => none
  | .exit worker =>
    match p.workOf? worker with
    | some .idle =>
      if p.stopping ∧ p.queue = [] then
        some { p with workers := p.workers.filter (·.1 ≠ worker) }
      else none
    | _ => none
  | .stop => some p.halt
  | .rouse => if p.alarms = 0 then none else some p.rouse
  | .takeHandles => if p.stopping ∧ ¬p.spawning then some { p with handles := [] } else none
  | .take task => some (p.take task).2

/-- A run of acts; none if one of them cannot happen. -/
def run (p : Pool α) (acts : List (Act α)) : Option (Pool α) := acts.foldlM act p

/-- The worker of a running task ends it and is free again. -/
def finishTask (p : Pool α) (task : Nat) (outcome : Outcome α) : Option (Pool α) := do
  let (worker, _) ← p.workers.find? (·.2 = .running task)
  p.run [.finish worker outcome, .close worker, .release worker]

/-- How many acts the pool has before it at most, unless something new comes from outside. -/
def effort (p : Pool α) : Nat :=
  2 * p.notices + 3 * p.growing + (if p.spawning then 2 else 0) + p.alarms + 4 * p.queue.length +
    (p.workers.map (·.2.effort p.stopping)).foldr (· + ·) 0

/-- The act that is due when the tasks that a worker is given end as told, or go on. -/
def due? (p : Pool α) (ending? : Nat → Nat → Option (Outcome α)) : Option (Act α) :=
  if p.notices ≠ 0 then some (.notify ((p.workers.find? (·.2 = .asleep)).map (·.1)))
  else if p.spawning then some (.spawn true)
  else if p.growing ≠ 0 then some .grow
  else if p.alarms ≠ 0 then some .rouse
  else
    let step? : Nat × Work → Option (Act α)
      | (w, .ending _) => some (.release w)
      | (w, .sent _) => some (.close w)
      | (w, .running task) => (ending? w task).map (.finish w)
      | (w, .idle) =>
        some (if p.queue ≠ [] then .start w else if p.stopping then .exit w else .sleep w)
      | (_, .asleep) => none
    p.workers.findSome? step?

/-- Does what is due, at most `limit` times. -/
def settleWithin (ending? : Nat → Nat → Option (Outcome α)) : (limit : Nat) → Pool α → Pool α
  | 0, p => p
  | limit + 1, p =>
    match (p.due? ending?).bind p.act with
    | some p => settleWithin ending? limit p
    | none => p

/-- Does what is due until the pool rests. -/
def settle (p : Pool α) (ending? : Nat → Nat → Option (Outcome α)) : Pool α :=
  p.settleWithin ending? p.effort

/-- Stops the pool, wakes its workers and takes the list of those to wait for. A worker that asks
for this does not wait for itself. -/
def shutdown (p : Pool α) (caller : Option Nat) : Nat × Pool α :=
  ((p.handles.filter (some · ≠ caller)).length, { p.halt.rouse with handles := [] })

def describe (p : Pool α) : String :=
  s!"ThreadPool \x7b workers: {p.workerCount}, outstanding: {p.outstanding} \x7d"

/-- Whether an outcome is there to be taken. -/
def isReady (p : Pool α) (task : Nat) : Bool := (p.slot task).outcome.isSome

end Pool

end SessionDispatch
