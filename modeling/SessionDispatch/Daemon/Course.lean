import SessionDispatch.Daemon.Running

/-!
# The undisturbed course of a daemon

Records that have come in are dispatched and answered one after the other, each by the first loop of
its kind that still runs.
-/

namespace SessionDispatch.Daemon

/-- Does the acts that are picked, at most `limit` times. -/
def repeatedly (h : Handler) (pick? : Daemon → Option Act) : (limit : Nat) → Daemon → Daemon
  | 0, d => d
  | limit + 1, d =>
    match (pick? d).bind (d.act h) with
    | some d => repeatedly h pick? limit d
    | none => d

/-- The act for which the first running task is found that has something to do. -/
def firstTask? (d : Daemon) (act? : Task → Option Act) : Option Act :=
  (d.tasks.map (·.1)).findSome? fun t => if d.isRunning t then act? t else none

/-- The first expiry that a worker has. -/
def nextExpire? (d : Daemon) : Option Act :=
  (d.expiries.find? fun e => d.isBusyWith e.1).map (.expire ·.1)

/-- What a loop does with the record that it has taken; without one it takes one, if there
is any. -/
def taken? (d : Daemon) (t : Task) (queue? : Option (Queue Packet)) (handle : Packet → Act) :
    Option Act :=
  match d.hand? t with
  | some p => some (handle p)
  | none => if queue?.any (!·.isEmpty) then some (.take t) else none

def nextDispatch? (d : Daemon) : Option Act :=
  d.firstTask? fun
    | .dispatcher family n =>
      d.taken? (.dispatcher family n) (d.inbound? family) fun _ => .dispatch family n none
    | _ => none

def nextTransmit? (network : Network) (d : Daemon) : Option Act :=
  d.firstTask? fun
    | .sender family id =>
      d.taken? (.sender family id) (d.outbound? family) fun p =>
        .transmit family id (network.deliver p)
    | _ => none

def nextFinish? (d : Daemon) : Option Act :=
  d.firstTask? fun t => if d.isDone t then some (.finish t) else none

/-- What a daemon that stops does itself. -/
def nextStep? (d : Daemon) : Option Act :=
  match d.phase with
  | .running | .down _ => none
  | .stopping _ => some .order
  | .joining joined _ => some (if joined < d.tasks.length then .join else .closePool)
  | .draining .. => some .conclude

/-- Carries out expiries, dispatches what has come in and sends the replies. -/
def work (h : Handler) (network : Network) (d : Daemon) : Daemon :=
  let d := repeatedly h nextExpire? d.expiries.length d
  let d := repeatedly h nextDispatch? (2 * d.total (·.inbound.size) + d.hands.length) d
  repeatedly h (nextTransmit? network) (2 * d.total (·.outbound.size) + d.hands.length) d

/-- Time goes on, and the timer makes a pass. -/
def advance (h : Handler) (network : Network) (d : Daemon) (span : Span) : Daemon :=
  (repeatedly h (fun _ => some .pass) 1 { d with now := d.now + span }).work h network

/-- A record comes in at the first endpoint of its family; gives what is sent in answer. -/
def exchange (h : Handler) (network : Network) (d : Daemon) (p : Packet) : List Packet × Daemon :=
  let family := p.peer.family
  match d.endpoints family with
  | [] => ([], d)
  | e :: _ =>
    let d := repeatedly h (fun _ => some (.receive family e.id (e.cut p))) 1 d
    let d := repeatedly h nextDispatch? 2 d
    ((d.outbound? family).elim [] (·.pending), d.work h network)

/-- The act that is due in a daemon that was told to stop. -/
def due? (network : Network) (d : Daemon) : Option Act :=
  d.nextExpire?.or
    (d.nextDispatch?.or ((d.nextTransmit? network).or (d.nextFinish?.or d.nextStep?)))

/-- How many steps a daemon that stops has before it itself. -/
def Phase.effort (tasks : Nat) : Phase → Nat
  | .running => 0
  | .stopping left => left.length + tasks + 2
  | .joining joined _ => tasks - joined + 2
  | .draining .. => 1
  | .down _ => 0

/-- How many acts are to come at most in a daemon that was told to stop. -/
def effort (d : Daemon) : Nat :=
  2 * d.total (·.inbound.size) + 2 * d.total (·.outbound.size) + d.hands.length +
    d.pool.outstanding + d.phase.effort d.tasks.length

/-- Tells every part to end, waits for every task and for the threads, and drops what is left. -/
def shutdown (h : Handler) (network : Network) (d : Daemon) : Daemon :=
  let d := repeatedly h (fun _ => some .stop) 1 d
  let d := repeatedly h nextStep? d.orders.length d
  repeatedly h (due? network) d.effort d

/-- A daemon that nobody holds any more is shut down, unless it has been. -/
def drop (h : Handler) (network : Network) (d : Daemon) : Daemon :=
  match d.phase with
  | .running => d.shutdown h network
  | _ => d

end SessionDispatch.Daemon
