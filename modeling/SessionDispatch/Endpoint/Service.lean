import SessionDispatch.Endpoint.Sender

/-!
# Endpoints at work

An endpoint with its receive loop and the queue of what it has to send.
-/

namespace SessionDispatch

structure EndpointService where
  receiver : Receiver
  outbound : Queue Packet
  reported : List Metric := []
deriving Repr

namespace EndpointService

def new (e : Endpoint) (order : Discipline) : EndpointService :=
  ⟨{ endpoint := e, inbound := .new order }, .new order, []⟩

def perform (s : EndpointService) (a : Receiver.Act) : EndpointService :=
  { s with receiver := s.receiver.perform a }

/-- A datagram is sent to the endpoint. The network may refuse it, and may lose it. -/
def sendTo (s : EndpointService) (network : Network) (p : Packet) :
    Except OsError EndpointService :=
  let target := s.receiver.endpoint.address
  match network.sendError? target p.payload.length with
  | some e => .error e
  | none => .ok (if network.reaches target then s.perform (.arrive p) else s)

/-- How the receive loop ended, if it has. -/
def receiveOutcome? (s : EndpointService) : Option (Except Failure Unit) :=
  match s.receiver.phase with
  | .ended outcome => some outcome
  | _ => none

/-- Takes the record whose turn it is from the inbound queue. -/
def takeInbound (s : EndpointService) : Option Packet × EndpointService :=
  let (p, inbound) := s.receiver.inbound.take
  (p, { s with receiver := { s.receiver with inbound } })

/-- Takes all records from the inbound queue. -/
def drainInbound (s : EndpointService) : List Packet × EndpointService :=
  let (ps, inbound) := s.receiver.inbound.drain
  (ps, { s with receiver := { s.receiver with inbound } })

/-- Queues a record for sending. -/
def reply (s : EndpointService) (p : Packet) : Bool × EndpointService :=
  let (accepted, outbound) := s.outbound.push p
  (accepted, { s with outbound })

/-- Closes the outbound queue and lets a send loop empty it. -/
def sendAll (s : EndpointService) (network : Network) :
    Option (Except Failure Unit) × EndpointService :=
  let sender := Sender.settle network { receiver := s.receiver, outbound := s.outbound.close }
  let outcome := match sender.phase with
    | .ended outcome => some outcome
    | _ => none
  (outcome, { receiver := sender.receiver, outbound := sender.outbound,
              reported := s.reported ++ sender.metrics })

/-- Everything reported, once a running receive loop has been stopped. -/
def metrics (s : EndpointService) : List Metric :=
  (if s.receiver.isRunning then s.receiver.perform .stop else s.receiver).metrics ++ s.reported

end EndpointService

end SessionDispatch
