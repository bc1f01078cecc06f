import SessionDispatch.Pool

/-!
# Jobs

A job says what a task of a pool does. A held job keeps its worker until it is let go. Workers carry
out what they can before anything else happens.
-/

namespace SessionDispatch

/-- What a task does: it may panic, also with a payload that is no text, shut down the pool that it
runs on, or tell the name of its worker. -/
inductive Job (α : Type)
  | give (a : α)
  | panic (text : String)
  | panicOpaque
  | shutdown (result : Nat → α)
  | workerName (result : String → α)

/-- A pool at rest, with the job of every task and whether it is held. -/
structure Jobs (α : Type) where
  name : String
  pool : Pool α
  jobs : List (Job α × Bool) := []

namespace Jobs

variable {α : Type}

/-- How a task ends on a worker, unless it is held or has to shut the pool down first. -/
def ending? (j : Jobs α) (worker task : Nat) : Option (Pool.Outcome α) :=
  match j.jobs[task]? with
  | some (.give a, false) => some (.ok a)
  | some (.panic text, false) => some (.error text)
  | some (.panicOpaque, false) => some (.error Pool.opaquePanic)
  | some (.workerName result, false) => some (.ok (result s!"{j.name}-{worker}"))
  | _ => none

/-- The worker that has come to a shutdown of the pool. -/
def closing? (j : Jobs α) : Option (Nat × (Nat → α)) :=
  j.pool.workers.findSome? fun
    | (worker, .running task) =>
      match j.jobs[task]? with
      | some (.shutdown result, false) => some (worker, result)
      | _ => none
    | _ => none

/-- Lets the workers do what they can. -/
def settle (j : Jobs α) : Jobs α :=
  let j := { j with pool := j.pool.settle j.ending? }
  match j.closing? with
  | none => j
  | some (worker, result) =>
    let (joined, pool) := j.pool.shutdown (some worker)
    let pool := (pool.act (.finish worker (.ok (result joined)))).getD pool
    { j with pool := pool.settle j.ending? }

def submit (j : Jobs α) (job : Job α) (held : Bool) : Except Failure Nat × Jobs α :=
  match j.pool.submit with
  | (.ok task, pool) => (.ok task, { j with pool, jobs := j.jobs ++ [(job, held)] })
  | (.error f, _) => (.error f, j)

/-- Lets a held job go on. -/
def release (j : Jobs α) (task : Nat) : Jobs α :=
  { j with jobs := j.jobs.modify task fun ((job, _) : Job α × Bool) => (job, false) }

/-- Lets every job go on. -/
def releaseAll (j : Jobs α) : Jobs α :=
  { j with jobs := j.jobs.map fun ((job, _) : Job α × Bool) => (job, false) }.settle

/-- Lets every job go on and shuts the pool down. -/
def shutdown (j : Jobs α) : Nat × Jobs α :=
  let j := j.releaseAll
  let (joined, pool) := j.pool.shutdown none
  (joined, { j with pool })

end Jobs

end SessionDispatch
