import SessionDispatch.Daemon.Reload
import SessionDispatch.Endpoint.Sender

/-!
# What happens in a running daemon

Records come in, are taken by dispatchers, dispatched, and answered by send loops; loops may end
early; the timer hands expiries to the pool; reloads are answered. A daemon that stops tells one
part after the other to end, waits for its tasks in the order in which they were started, then for
the threads of the pool, and drops its sessions. An `Act` is what one task does in one step.
-/

namespace SessionDispatch.Daemon

/-- What one part of a daemon does without interruption. The last six acts shut it down: parts are
told to end one after the other, loops end, tasks are waited for, the pool is closed, and when its
threads have ended sessions are dropped and the handler is released. -/
inductive Act
  | receive (family : Family) (endpoint : Nat) (p : Packet)
  | take (t : Task)
  | dispatch (family : Family) (n : Nat) (panic : Option String)
  | transmit (family : Family) (endpoint : Nat) (delivery : Delivery)
  | fail (t : Task) (f : Failure)
  | tick (d : Span)
  | pass
  | expire (job : Nat)
  | reload (files : Files) (env : Environment)
  | stop
  | order
  | finish (t : Task)
  | join
  | closePool
  | conclude
deriving Repr

/-- The queue of a family that loops take records from. -/
def inbound? (d : Daemon) (family : Family) : Option (Queue Packet) :=
  (d.manager? family).map (·.inbound)

def outbound? (d : Daemon) (family : Family) : Option (Queue Packet) :=
  (d.manager? family).map (·.outbound)

/-- A record enters the inbound queue of a family. -/
def receive (d : Daemon) (family : Family) (p : Packet) : Daemon :=
  (d.modifyManager family fun m => { m with inbound := (m.inbound.push p).2 }).report
    [.packetReceived p.payload.length]

/-- A loop takes the record whose turn it is in its queue. -/
def take (d : Daemon) (t : Task) : Option Daemon :=
  match t with
  | .dispatcher family _ => do
    let (next, inbound) := (← d.inbound? family).take
    return (d.modifyManager family fun m => { m with inbound }).hold t (← next)
  | .sender family _ => do
    let (next, outbound) := (← d.outbound? family).take
    return (d.modifyManager family fun m => { m with outbound }).hold t (← next)
  | _ => none

/-- A dispatcher dispatches its record. A panic of the handler ends it. -/
def dispatch (h : Handler) (d : Daemon) (family : Family) (n : Nat) (panic : Option String) :
    Option Daemon := do
  let m ← d.manager? family
  let p ← d.hand? (.dispatcher family n)
  let h := if panic.isSome then .silent else h
  let (_, _, timer, metrics) := m.dispatch d.timer d.now h p
  let done :=
    (({ d with timer }.modifyManager family fun m =>
      (m.dispatch d.timer d.now h p).2.1).letGo (.dispatcher family n)).report metrics
  return panic.elim done fun text => done.finish (.dispatcher family n) (.error text)

/-- A send loop writes its record. A record of the other family is dropped. -/
def transmit (d : Daemon) (family : Family) (id : Nat) (delivery : Delivery) : Option Daemon := do
  let e ← (d.endpoints family).find? (·.id = id)
  let p ← d.hand? (.sender family id)
  let done := d.letGo (.sender family id)
  if p.peer.family = family then
    match delivery with
    | .sent => return done.report [.packetSent p.payload.length]
    | .failed reason =>
      return (done.report [.sendError]).finish (.sender family id)
        (.ok (.error (Sender.sendFailure e p reason)))
    | .interrupted => return d
  else return done

/-- An expiry becomes a task of the pool. -/
def handOver (d : Daemon) (e : Expiry) : Daemon :=
  match (d.report [.timerFired]).submit with
  | (some job, d) => { d with expiries := d.expiries ++ [(job, e)] }
  | (none, d) => d

/-- The timer makes a pass, and the expiries that it hands out become tasks of the pool. -/
def pass (d : Daemon) : Daemon :=
  let (due, timer) := d.timer.pass d.now
  due.foldl (fun d event => d.handOver event.action) { d with timer }

/-- Carries out an expiry. -/
def expire (d : Daemon) (job : Nat) (e : Expiry) : Daemon :=
  let metrics := (d.manager? e.family).elim [] fun m => (m.expire e).2
  let d := (d.modifyManager e.family fun m => (m.expire e).1).report metrics
  { d with expiries := d.expiries.filter (·.1 ≠ job) }.complete job (.ok (.ok ()))

/-- What ends the loops: the watcher and the timer first, then for every family its queues and its
receive loops. -/
def orders (d : Daemon) : List Order :=
  [.signal .reloadWatcher, .stopTimer] ++ d.services.flatMap fun s =>
    [.closeInbound s.family, .closeOutbound s.family] ++
      s.endpoints.map fun e => .signal (.receiver s.family e.id)

/-- Gives an order. -/
def give (d : Daemon) : Order → Daemon
  | .signal t => { d with signals := d.signals ++ [t] }
  | .stopTimer => { d with timer := d.timer.stop }
  | .closeInbound family => d.modifyManager family fun m => { m with inbound := m.inbound.close }
  | .closeOutbound family => d.modifyManager family fun m => { m with outbound := m.outbound.close }

/-- The phase in which these orders are left to be given. -/
def Phase.ofOrders : List Order → Phase
  | [] => .joining 0 []
  | left => .stopping left

/-- Whether a loop that looks for something to do finds that it is to end. -/
def isDone (d : Daemon) (t : Task) : Bool :=
  match t with
  | .timer => d.timer.stopped
  | .dispatcher family _ =>
    (d.inbound? family).any (fun q => q.closed && q.isEmpty) && (d.hand? t).isNone
  | .sender family _ =>
    (d.outbound? family).any (fun q => q.closed && q.isEmpty) && (d.hand? t).isNone
  | .receiver .. | .reloadWatcher => t ∈ d.signals

/-- What a loop reports when it ends. -/
def farewell : Task → List Metric
  | .receiver .. => [.endpointStopped]
  | _ => []

/-- The pool takes no more tasks, and the threads that are to be waited for are known. -/
def closePool (d : Daemon) (joined : Nat) (failed : List (Task × Failure)) : Daemon :=
  let (threads, pool) := d.pool.shutdown none
  { d with pool := pool.settle fun _ _ => none, phase := .draining joined failed threads }

/-- Sessions are dropped, and the handler is released. -/
def conclude (d : Daemon) (joined : Nat) (failed : List (Task × Failure)) (threads : Nat) :
    Daemon :=
  { d with
    phase := .down ⟨joined, failed, threads, d.sessionCount⟩
    released := d.released + 1 }.modifyManagers (·.clear.2)

/-- One act, if it can happen. -/
def act (h : Handler) (d : Daemon) : Act → Option Daemon
  | .receive family id p =>
    if d.isRunning (.receiver family id) then some (d.receive family p) else none
  | .take t => if d.isRunning t ∧ d.hand? t = none then d.take t else none
  | .dispatch family n panic =>
    if d.isRunning (.dispatcher family n) then d.dispatch h family n panic else none
  | .transmit family id delivery =>
    if d.isRunning (.sender family id) then d.transmit family id delivery else none
  | .fail t f =>
    match t with
    | .receiver .. | .reloadWatcher =>
      if d.isRunning t then some ((d.report (farewell t)).finish t (.ok (.error f))) else none
    | _ => none
  | .tick span => some { d with now := d.now + span }
  | .pass => if d.isRunning .timer ∧ d.timer.stopped = false then some d.pass else none
  | .expire job => if d.isBusyWith job then (d.expiries.lookup job).map (d.expire job) else none
  | .reload files env => if d.isRunning .reloadWatcher then some (d.reload files env) else none
  | .stop =>
    match d.phase with
    | .running => some { d with phase := .ofOrders d.orders }
    | _ => none
  | .order =>
    match d.phase with
    | .stopping (o :: left) => some { d.give o with phase := .ofOrders left }
    | _ => none
  | .finish t =>
    if d.isRunning t ∧ d.isDone t then
      some ((d.report (farewell t)).finish t (.ok (.ok ())))
    else none
  | .join =>
    match d.phase with
    | .joining joined failed => do
      let (t, job) ← d.tasks[joined]?
      let (ending, pool) := d.pool.take job
      let failure := failureOf (← ending)
      return { d with pool, phase := .joining (joined + 1) (failed ++ (failure.map (t, ·)).toList) }
    | _ => none
  | .closePool =>
    match d.phase with
    | .joining joined failed =>
      if joined = d.tasks.length then some (d.closePool joined failed) else none
    | _ => none
  | .conclude =>
    match d.phase with
    | .draining joined failed threads =>
      if d.pool.workers = [] then some (d.conclude joined failed threads) else none
    | _ => none

/-- A run of acts; none if one of them cannot happen. -/
def run (h : Handler) (d : Daemon) (acts : List Act) : Option Daemon := acts.foldlM (act h) d

end SessionDispatch.Daemon
