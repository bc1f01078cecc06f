import SessionDispatch.Packet
import SessionDispatch.Queue
import SessionDispatch.Session.Expiry
import SessionDispatch.Session.Handler
import SessionDispatch.Table
import SessionDispatch.Telemetry.Metrics
import SessionDispatch.Timer

/-!
# Sessions

A record goes to the session of its peer, which is made at the first record. A session is removed by
a timer that is armed when it is made and, if expiry slides, at every further record. Each arming
raises the session's generation, and a timer removes the session only if it is of the latest one.

A session is an object: it may go on being used by who holds it after the table has let it go, and
another session of the same key is another object. Objects are numbered in the order in which they
are made.
-/

namespace SessionDispatch

/-- What is known of one peer, with the records handled, how often the timer was armed, and the
event armed last. -/
structure Session where
  key : PeerKey
  peer : SocketAddress
  packets : Nat := 0
  generation : Nat := 0
  event : Option Nat := none
deriving DecidableEq, Repr, Inhabited

/-- What a timer event is armed for: the end of a session, unless it is armed anew. -/
structure Expiry where
  family : Family
  session : Nat
  generation : Nat
deriving DecidableEq, Repr

/-- What came of one record, with the number of replies that the handler gave. -/
structure Dispatched where
  created : Bool
  replies : Nat
deriving DecidableEq, Repr

/-- The sessions and the queues of one family: the table of those that records are routed to, and
all that were ever made. -/
structure SessionManager where
  family : Family
  policy : ExpiryPolicy
  inbound : Queue Packet
  outbound : Queue Packet
  table : Table PeerKey Nat
  sessions : List Session

namespace SessionManager

def new (family : Family) (order : Discipline) (policy : ExpiryPolicy) : SessionManager :=
  ⟨family, policy, .new order, .new order, .empty, []⟩

def session? (m : SessionManager) (id : Nat) : Option Session := m.sessions[id]?

/-- The session that records of a key go to. -/
def find? (m : SessionManager) (k : PeerKey) : Option Session := (m.table.find? k).bind m.session?

def modifySession (m : SessionManager) (id : Nat) (f : Session → Session) : SessionManager :=
  { m with sessions := m.sessions.modify id f }

/-- Finds the session of a record's peer or makes it; tells whether it was made. -/
def route (m : SessionManager) (p : Packet) : (Nat × Bool) × SessionManager :=
  let ((id, created), table) := m.table.findOrInsert p.key m.sessions.length
  let sessions := if created then m.sessions ++ [{ key := p.key, peer := p.peer }] else m.sessions
  ((id, created), { m with table, sessions })

/-- Arms the timer of a session anew and raises its generation. The event armed before is left to be
cancelled. -/
def renew (m : SessionManager) (timer : Timer Expiry) (now : Instant) (id : Nat) :
    Option Nat × SessionManager × Timer Expiry :=
  match m.session? id with
  | none => (none, m, timer)
  | some s =>
    let generation := s.generation + 1
    let (event, timer) := timer.schedule now m.policy.timeout false ⟨m.family, id, generation⟩
    (s.event, m.modifySession id fun s => { s with generation, event := some event }, timer)

/-- Cancels the event that a session was armed with before, if there is one. -/
def withdraw (timer : Timer Expiry) : Option Nat → Timer Expiry
  | some previous => (timer.cancel previous).2
  | none => timer

/-- Arms the timer of a session anew: the generation rises, and the event armed before is
cancelled. -/
def arm (m : SessionManager) (timer : Timer Expiry) (now : Instant) (id : Nat) :
    SessionManager × Timer Expiry :=
  let (previous, m, timer) := m.renew timer now id
  (m, withdraw timer previous)

/-- Whether a record arms the timer of its session. -/
def mustArm (m : SessionManager) (created : Bool) : Bool := created || m.policy.mode = .sliding

/-- Hands a payload to the handler, and addresses the replies to the peer of the session. -/
def process (m : SessionManager) (h : Handler) (id : Nat) (payload : List UInt8) :
    List Packet × SessionManager :=
  match m.session? id with
  | none => ([], m)
  | some s =>
    ((h s.key payload).map fun reply => ⟨s.peer, reply⟩,
      m.modifySession id fun s => { s with packets := s.packets + 1 })

/-- Queues replies for sending. A closed queue drops them. -/
def reply (m : SessionManager) (replies : List Packet) : SessionManager :=
  { m with outbound := replies.foldl (fun q p => (q.push p).2) m.outbound }

/-- The whole way of one record: route, arm where needed, process, reply. -/
def dispatch (m : SessionManager) (timer : Timer Expiry) (now : Instant) (h : Handler)
    (p : Packet) :
    Dispatched × SessionManager × Timer Expiry × List Metric :=
  let ((id, created), m) := m.route p
  let (m, timer) := if m.mustArm created then m.arm timer now id else (m, timer)
  let (replies, m) := m.process h id p.payload
  (⟨created, replies.length⟩, m.reply replies, timer,
    if created then [.sessionCreated] else [])

/-- Dispatches what the inbound queue holds. -/
def dispatchAll (m : SessionManager) (timer : Timer Expiry) (now : Instant) (h : Handler) :
    SessionManager × Timer Expiry × List Metric :=
  let (packets, inbound) := m.inbound.drain
  packets.foldl (fun (m, timer, metrics) p =>
    let (_, m, timer, more) := m.dispatch timer now h p
    (m, timer, metrics ++ more)) ({ m with inbound }, timer, [])

/-- The timer of a session has run out: the session is removed, if it was not armed since and is
still the one that its key stands for. -/
def expire (m : SessionManager) (e : Expiry) : SessionManager × List Metric :=
  match m.session? e.session with
  | none => (m, [])
  | some s =>
    if s.generation = e.generation then
      let (removed, table) := m.table.eraseIfSame s.key e.session
      ({ m with table }, if removed then [.sessionExpired] else [])
    else (m, [])

/-- Removes a session by hand; its timer stays armed. -/
def remove (m : SessionManager) (k : PeerKey) : SessionManager :=
  { m with table := m.table.erase k }

def clear (m : SessionManager) : Nat × SessionManager := (m.table.size, { m with table := .empty })

/-- Closes both queues. -/
def close (m : SessionManager) : SessionManager :=
  { m with inbound := m.inbound.close, outbound := m.outbound.close }

def describe (m : SessionManager) : String :=
  let family := match m.family with
    | .v4 => "V4"
    | .v6 => "V6"
  s!"SessionManager \x7b family: {family}, sessions: {m.table.size}, " ++
    s!"expiry: {m.policy.describe} \x7d"

end SessionManager

end SessionDispatch
