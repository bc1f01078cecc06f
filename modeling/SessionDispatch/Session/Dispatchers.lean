import SessionDispatch.Session.Manager

/-!
# Dispatchers at work together

Several dispatchers take records from one inbound queue. Each finds or makes the session of its
record, arms the session's timer where needed, cancels the event armed before, calls the handler
under the session's lock and queues the replies; between these, other dispatchers go on, the timer
makes passes, and expiries that it handed out are carried out, perhaps late and in any order. An
`Act` is what one thread does without interruption.
-/

namespace SessionDispatch

namespace Dispatchers

/-- Where a dispatcher is. Of a session that was made, `routed` means that this is not reported yet.
In `disarming` the timer is armed anew and the event armed before is about to be cancelled, while
nobody else arms or ends the session. The session's lock is held in `handling` only. -/
inductive Stage
  | idle
  | taken (p : Packet)
  | routed (p : Packet) (session : Nat) (created : Bool)
  | arming (p : Packet) (session : Nat) (created : Bool)
  | disarming (p : Packet) (session : Nat) (created : Bool) (previous : Option Nat)
  | ready (p : Packet) (session : Nat) (created : Bool)
  | handling (p : Packet) (session : Nat) (created : Bool)
  | replying (session : Nat) (replies : List Packet)
  | ended
deriving DecidableEq, Repr

namespace Stage

/-- The session that a stage works on. -/
def session? : Stage → Option Nat
  | idle | taken _ | ended => none
  | routed _ s _ | arming _ s _ | disarming _ s _ _ | ready _ s _ | handling _ s _ | replying s _ =>
    some s

/-- The session whose lock a stage holds. -/
def locked? : Stage → Option Nat
  | handling _ s _ => some s
  | _ => none

/-- The session whose expiry a stage keeps from others. -/
def renewing? : Stage → Option Nat
  | disarming _ s _ _ => some s
  | _ => none

end Stage

/-- What one thread does without interruption. Expiries that a pass has handed out are carried out
in any order, or given up once the pool that was to carry them out takes no task. -/
inductive Act
  | arrive (p : Packet)
  | closeInbound
  | closeOutbound
  | send
  | take (dispatcher : Nat)
  | route (dispatcher : Nat)
  | decide (dispatcher : Nat)
  | arm (dispatcher : Nat)
  | disarm (dispatcher : Nat)
  | enter (dispatcher : Nat)
  | leave (dispatcher : Nat)
  | reply (dispatcher : Nat)
  | setPolicy (p : ExpiryPolicy)
  | tick (d : Span)
  | pass
  | expire (position : Nat)
  | giveUp (position : Nat)
  | closePool
  | stopTimer
  | remove (k : PeerKey)
  | clear
deriving DecidableEq, Repr

end Dispatchers

/-- The dispatchers of a family with what they share. Of the past are known all records that the
inbound queue took, all calls of the handler in the order in which they began, and all replies that
the outbound queue took or that came too late for it. -/
structure Dispatchers where
  manager : SessionManager
  timer : Timer Expiry := {}
  now : Instant
  expiries : List Expiry := []
  poolClosed : Bool := false
  stages : List Dispatchers.Stage
  accepted : List Packet := []
  handled : List (PeerKey × List UInt8) := []
  replied : List Packet := []
  dropped : List Packet := []
  metrics : List Metric := []

namespace Dispatchers

def start (manager : SessionManager) (now : Instant) (count : Nat) : Dispatchers where
  manager
  now
  stages := List.replicate count .idle

def setStage (s : Dispatchers) (d : Nat) (stage : Stage) : Dispatchers :=
  { s with stages := s.stages.set d stage }

/-- Whether a dispatcher is in the handler for a session. -/
def isLocked (s : Dispatchers) (session : Nat) : Bool := s.stages.any (·.locked? = some session)

/-- Whether a dispatcher is arming a session. -/
def isRenewing (s : Dispatchers) (session : Nat) : Bool := s.stages.any (·.renewing? = some session)

/-- One act, if it can happen. -/
def act (h : Handler) (s : Dispatchers) : Act → Option Dispatchers
  | .arrive p =>
    let (taken, inbound) := s.manager.inbound.push p
    some { s with
      manager := { s.manager with inbound }
      accepted := if taken then s.accepted ++ [p] else s.accepted }
  | .closeInbound =>
    some { s with manager := { s.manager with inbound := s.manager.inbound.close } }
  | .closeOutbound =>
    some { s with manager := { s.manager with outbound := s.manager.outbound.close } }
  | .send => some { s with manager := { s.manager with outbound := s.manager.outbound.take.2 } }
  | .take d =>
    match s.stages[d]?, s.manager.inbound.take with
    | some .idle, (some p, inbound) =>
      some ({ s with manager := { s.manager with inbound } }.setStage d (.taken p))
    | some .idle, (none, _) =>
      if s.manager.inbound.closed then some (s.setStage d .ended) else none
    | _, _ => none
  | .route d =>
    match s.stages[d]? with
    | some (.taken p) =>
      let ((id, created), manager) := s.manager.route p
      some ({ s with manager }.setStage d (.routed p id created))
    | _ => none
  | .decide d =>
    match s.stages[d]? with
    | some (.routed p id created) =>
      let stage :=
        if s.manager.mustArm created then Stage.arming p id created else .ready p id created
      let metrics := if created then s.metrics ++ [Metric.sessionCreated] else s.metrics
      some ({ s with metrics }.setStage d stage)
    | _ => none
  | .arm d =>
    match s.stages[d]? with
    | some (.arming p id created) =>
      if s.isRenewing id then none
      else
        let (previous, manager, timer) := s.manager.renew s.timer s.now id
        some ({ s with manager, timer }.setStage d (.disarming p id created previous))
    | _ => none
  | .disarm d =>
    match s.stages[d]? with
    | some (.disarming p id created previous) =>
      some ({ s with timer := SessionManager.withdraw s.timer previous }.setStage d
        (.ready p id created))
    | _ => none
  | .enter d =>
    match s.stages[d]? with
    | some (.ready p id created) =>
      match s.manager.session? id with
      | some x =>
        if s.isLocked id then none
        else some ({ s with handled := s.handled ++ [(x.key, p.payload)] }.setStage d
          (.handling p id created))
      | none => none
    | _ => none
  | .leave d =>
    match s.stages[d]? with
    | some (.handling p id _) =>
      let (replies, manager) := s.manager.process h id p.payload
      some ({ s with manager }.setStage d (.replying id replies))
    | _ => none
  | .reply d =>
    match s.stages[d]? with
    | some (.replying _ []) => some (s.setStage d .idle)
    | some (.replying id (p :: rest)) =>
      let (taken, outbound) := s.manager.outbound.push p
      some ({ s with
        manager := { s.manager with outbound }
        replied := if taken then s.replied ++ [p] else s.replied
        dropped := if taken then s.dropped else s.dropped ++ [p]
        }.setStage d (.replying id rest))
    | _ => none
  | .setPolicy policy => some { s with manager := { s.manager with policy } }
  | .tick d => some { s with now := s.now + d }
  | .pass =>
    if s.timer.stopped then none
    else
      let (due, timer) := s.timer.pass s.now
      some { s with
        timer
        expiries := s.expiries ++ due.map (·.action)
        metrics := s.metrics ++ due.map fun _ => .timerFired }
  | .expire position =>
    match s.expiries[position]? with
    | some e =>
      if s.isRenewing e.session then none
      else
        let (manager, metrics) := s.manager.expire e
        some { s with
          manager
          expiries := s.expiries.eraseIdx position
          metrics := s.metrics ++ metrics }
    | none => none
  | .giveUp position =>
    if s.poolClosed ∧ position < s.expiries.length then
      some { s with expiries := s.expiries.eraseIdx position }
    else none
  | .closePool => some { s with poolClosed := true }
  | .stopTimer => some { s with timer := s.timer.stop }
  | .remove k => some { s with manager := s.manager.remove k }
  | .clear => some { s with manager := s.manager.clear.2 }

/-- A run of acts; none if one of them cannot happen. -/
def run (h : Handler) (s : Dispatchers) (acts : List Act) : Option Dispatchers :=
  acts.foldlM (act h) s

end Dispatchers

end SessionDispatch
