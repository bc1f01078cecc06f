import SessionDispatch.Endpoint.Receiver

/-!
# Send loops

A send loop takes records from the outbound queue, which it shares with other send loops, and writes
them to their peers until the queue is closed and empty. A record of the other family is dropped.
The first error ends the loop. The receive loop of the same endpoint runs beside it. An `Act` is
what the loop or the world around it does in one step.
-/

namespace SessionDispatch

/-- What comes of an attempt to write a datagram. -/
inductive Delivery
  | sent
  | interrupted
  | failed (e : OsError)
deriving DecidableEq, Repr

namespace Network

/-- What comes of sending a record. -/
def deliver (n : Network) (p : Packet) : Delivery :=
  match n.sendError? p.peer p.payload.length with
  | some e => .failed e
  | none => .sent

end Network

namespace Sender

inductive Phase
  | waiting
  | sending (p : Packet)
  | ended (outcome : Except Failure Unit)
deriving Repr

/-- What the loop does, what other threads do at its queue, and what the receive side of the
endpoint does. -/
inductive Act
  | push (p : Packet)
  | close
  | takeElsewhere
  | receive (a : Receiver.Act)
  | take
  | attempt (delivery : Delivery)
deriving DecidableEq, Repr

end Sender

/-- The send loop of an endpoint, with the queue that it empties, the endpoint's receive side, and
all records that it took and that it wrote. -/
structure Sender where
  receiver : Receiver
  outbound : Queue Packet
  phase : Sender.Phase := .waiting
  taken : List Packet := []
  written : List Packet := []
  metrics : List Metric := []
deriving Repr

namespace Sender

def endpoint (s : Sender) : Endpoint := s.receiver.endpoint

/-- How the loop ends when a record cannot be sent. -/
def sendFailure (e : Endpoint) (p : Packet) (reason : OsError) : Failure :=
  e.failure s!"send to {p.peer} failed: {reason.message}"

/-- One act, if it can happen. -/
def act (s : Sender) : Act → Option Sender
  | .push p => some { s with outbound := (s.outbound.push p).2 }
  | .close => some { s with outbound := s.outbound.close }
  | .takeElsewhere => some { s with outbound := s.outbound.take.2 }
  | .receive a => (s.receiver.act a).map ({ s with receiver := · })
  | .take =>
    match s.phase, s.outbound.take with
    | .waiting, (some p, outbound) =>
      some { s with
        outbound
        taken := s.taken ++ [p]
        phase := if p.peer.family = s.endpoint.family then .sending p else .waiting }
    | .waiting, (none, _) =>
      if s.outbound.closed then some { s with phase := .ended (.ok ()) } else none
    | _, _ => none
  | .attempt delivery =>
    match s.phase, delivery with
    | .sending p, .sent =>
      some { s with
        phase := .waiting
        written := s.written ++ [p]
        metrics := s.metrics ++ [.packetSent p.payload.length] }
    | .sending _, .interrupted => some s
    | .sending p, .failed e =>
      some { s with
        phase := .ended (.error (sendFailure s.endpoint p e))
        metrics := s.metrics ++ [.sendError] }
    | _, _ => none

/-- A run of acts; none if one of them cannot happen. -/
def run (s : Sender) (acts : List Act) : Option Sender := acts.foldlM act s

/-- The act that the loop does next, unless it has ended. -/
def due? (n : Network) (s : Sender) : Option Act :=
  match s.phase with
  | .waiting => some .take
  | .sending p => some (.attempt (n.deliver p))
  | .ended _ => none

/-- Does what is due, at most `limit` times. -/
def settleWithin (n : Network) : (limit : Nat) → Sender → Sender
  | 0, s => s
  | limit + 1, s =>
    match (s.due? n).bind s.act with
    | some s => settleWithin n limit s
    | none => s

/-- Lets the loop go on until it waits or ends: every record is taken and written, and the end of
the queue is seen once. -/
def settle (n : Network) (s : Sender) : Sender := s.settleWithin n (2 * s.outbound.size + 2)

end Sender

end SessionDispatch
