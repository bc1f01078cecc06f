/-!
# Metrics

Components report what happens to them as events; counters and gauges are folded from the events in
the order in which they were reported.
-/

namespace SessionDispatch

/-- Something that is counted. A session has expired if its timer removed it, and a pool that grew
tells how many workers it has now. -/
inductive Metric
  | packetReceived (bytes : Nat)
  | packetSent (bytes : Nat)
  | receiveError
  | sendError
  | endpointStarted
  | endpointStopped
  | sessionCreated
  | sessionExpired
  | timerFired
  | poolGrew (workers : Nat)
deriving DecidableEq, Repr

namespace Metric

/-- The event of a name. Some events carry a number of bytes or of workers. -/
def ofName? (bytes workers : Nat) : String → Option Metric
  | "packet_received" => some (packetReceived bytes)
  | "packet_sent" => some (packetSent bytes)
  | "receive_error" => some receiveError
  | "send_error" => some sendError
  | "endpoint_started" => some endpointStarted
  | "endpoint_stopped" => some endpointStopped
  | "session_created" => some sessionCreated
  | "session_expired" => some sessionExpired
  | "timer_fired" => some timerFired
  | "pool_grew" => some (poolGrew workers)
  | _ => none

end Metric

/-- The counters at one moment. They wrap at 64 bits. -/
structure Snapshot where
  packetsReceived : UInt64 := 0
  bytesReceived : UInt64 := 0
  packetsSent : UInt64 := 0
  bytesSent : UInt64 := 0
  receiveErrors : UInt64 := 0
  sendErrors : UInt64 := 0
  activeEndpoints : UInt64 := 0
  sessionsCreated : UInt64 := 0
  sessionsExpired : UInt64 := 0
  timersFired : UInt64 := 0
  poolWorkers : UInt64 := 0
deriving DecidableEq, Repr

namespace Snapshot

/-- Folds one event. The gauge of active endpoints stops at zero, and that of the pool keeps the
greatest number reported. -/
def record (s : Snapshot) : Metric → Snapshot
  | .packetReceived bytes =>
    { s with
      packetsReceived := s.packetsReceived + 1
      bytesReceived := s.bytesReceived + bytes.toUInt64 }
  | .packetSent bytes =>
    { s with packetsSent := s.packetsSent + 1, bytesSent := s.bytesSent + bytes.toUInt64 }
  | .receiveError => { s with receiveErrors := s.receiveErrors + 1 }
  | .sendError => { s with sendErrors := s.sendErrors + 1 }
  | .endpointStarted => { s with activeEndpoints := s.activeEndpoints + 1 }
  | .endpointStopped =>
    { s with activeEndpoints := if s.activeEndpoints = 0 then 0 else s.activeEndpoints - 1 }
  | .sessionCreated => { s with sessionsCreated := s.sessionsCreated + 1 }
  | .sessionExpired => { s with sessionsExpired := s.sessionsExpired + 1 }
  | .timerFired => { s with timersFired := s.timersFired + 1 }
  | .poolGrew workers => { s with poolWorkers := max s.poolWorkers workers.toUInt64 }

/-- Sessions created and not expired. -/
def sessionsActive (s : Snapshot) : UInt64 :=
  if s.sessionsExpired ≤ s.sessionsCreated then s.sessionsCreated - s.sessionsExpired else 0

/-- All numbers by their names. -/
def fields (s : Snapshot) : List (String × UInt64) :=
  [("packets_received", s.packetsReceived), ("bytes_received", s.bytesReceived),
    ("packets_sent", s.packetsSent), ("bytes_sent", s.bytesSent),
    ("receive_errors", s.receiveErrors), ("send_errors", s.sendErrors),
    ("active_endpoints", s.activeEndpoints), ("sessions_created", s.sessionsCreated),
    ("sessions_expired", s.sessionsExpired), ("timers_fired", s.timersFired),
    ("pool_workers", s.poolWorkers), ("sessions_active", s.sessionsActive)]

/-- Folds what a channel holds. -/
def drain (s : Snapshot) (events : List Metric) : Snapshot := events.foldl record s

@[simp] theorem drain_nil (s : Snapshot) : s.drain [] = s := rfl

theorem drain_append (s : Snapshot) (a b : List Metric) : s.drain (a ++ b) = (s.drain a).drain b :=
  List.foldl_append

end Snapshot

end SessionDispatch
