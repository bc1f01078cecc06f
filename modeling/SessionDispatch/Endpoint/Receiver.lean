import SessionDispatch.Endpoint
import SessionDispatch.Queue
import SessionDispatch.Reactor.Notifier
import SessionDispatch.Telemetry.Metrics

/-!
# Receive loops

A receive loop waits for its socket and for the order to stop. When the socket is reported it reads
a batch of datagrams, one after the other into the same buffer, and queues what it read. The loop
goes on when the queue is closed; it ends when it reads the order to stop, or at an error. An `Act`
is what the loop or the world around it does in one step.
-/

namespace SessionDispatch

namespace Receiver

/-- The most reads between two waits. -/
def batchSize : Nat := 32

/-- Where the loop is. It reads in batches, with some reads `left`; what the poller has reported of
the order to stop is still to be read in `stopping`. -/
inductive Phase
  | fresh
  | polling
  | reading (left : Nat)
  | stopping
  | ended (outcome : Except Failure Unit)
deriving Repr

/-- What a read gives: the datagram that has waited longest, the report that one sent earlier was
not delivered, one whose source is no internet address, or an error. -/
inductive Outcome
  | datagram
  | wouldBlock
  | interrupted
  | undelivered
  | unaddressed (payload : List UInt8)
  | failed (e : OsError)
deriving DecidableEq, Repr

/-- What the loop does, what reaches its socket, and what other threads do at its queue. -/
inductive Act
  | arrive (datagram : Packet)
  | stop
  | closeQueue
  | takeQueued
  | queueElsewhere (p : Packet)
  | start
  | reportSocket
  | reportStop
  | stir
  | reportBroken (descriptor : Nat)
  | pollFailed (e : OsError)
  | read (outcome : Outcome)
  | readStop
deriving DecidableEq, Repr

end Receiver

/-- The receive loop of an endpoint, with its socket, which holds the datagrams `waiting`, oldest
first, and the queue that it fills. Of its past are known all datagrams read and all records that
the queue took. -/
structure Receiver where
  endpoint : Endpoint
  waiting : List Packet := []
  stops : Notifier := ⟨0, true, false⟩
  stopped : Bool := false
  inbound : Queue Packet
  buffer : List UInt8 := []
  phase : Receiver.Phase := .fresh
  received : List Packet := []
  queued : List Packet := []
  metrics : List Metric := []
deriving Repr

namespace Receiver

/-- Reads the first bytes of a datagram into the buffer; what the buffer held behind them stays. -/
def fill (buffer payload : List UInt8) : List UInt8 :=
  payload.take buffer.length ++ buffer.drop payload.length

/-- Reads a datagram and queues what the buffer got of it. -/
def accept (r : Receiver) (datagram : Packet) : Receiver :=
  let length := min datagram.payload.length r.buffer.length
  let buffer := fill r.buffer datagram.payload
  let record : Packet := ⟨datagram.peer, buffer.take length⟩
  let (taken, inbound) := r.inbound.push record
  { r with
    buffer, inbound
    received := r.received ++ [datagram]
    queued := if taken then r.queued ++ [record] else r.queued
    metrics := r.metrics ++ [.packetReceived length] }

/-- After a read that leaves this many in the batch. -/
def resume (r : Receiver) (left : Nat) : Receiver :=
  { r with phase := if left = 0 then .polling else .reading left }

def finish (r : Receiver) (outcome : Except Failure Unit) : Receiver :=
  { r with phase := .ended outcome, metrics := r.metrics ++ [.endpointStopped] }

/-- What a read does to the loop; none if it cannot give this. -/
def read (r : Receiver) (left : Nat) : Outcome → Option Receiver
  | .datagram =>
    match r.waiting with
    | [] => none
    | d :: waiting => some (({ r with waiting }.accept d).resume left)
  | .wouldBlock => some (r.resume 0)
  | .interrupted => some (r.resume left)
  | .undelivered => some ({ r with metrics := r.metrics ++ [Metric.receiveError] }.resume left)
  | .unaddressed payload => some ({ r with buffer := fill r.buffer payload }.resume left)
  | .failed e =>
    some ({ r with metrics := r.metrics ++ [Metric.receiveError] }.finish
      (.error (r.endpoint.failure s!"receive failed: {e.message}")))

/-- One act, if it can happen. -/
def act (r : Receiver) : Act → Option Receiver
  | .arrive d => some { r with waiting := r.waiting ++ [d] }
  | .stop =>
    match r.stops.notify Notifier.stopSignal with
    | (.done (), stops) => some { r with stops }
    | _ => none
  | .closeQueue => some { r with inbound := r.inbound.close }
  | .takeQueued => some { r with inbound := r.inbound.take.2 }
  | .queueElsewhere p => some { r with inbound := (r.inbound.push p).2 }
  | .start =>
    match r.phase with
    | .fresh | .ended _ =>
      some { r with
        phase := .polling
        buffer := List.replicate r.endpoint.bufferSize 0
        metrics := r.metrics ++ [.endpointStarted] }
    | _ => none
  | .reportSocket =>
    match r.phase with
    | .polling => some { r with phase := .reading batchSize }
    | _ => none
  | .reportStop =>
    match r.phase with
    | .polling => some { r with phase := .stopping }
    | _ => none
  | .stir =>
    match r.phase with
    | .polling => some r
    | _ => none
  | .reportBroken descriptor =>
    match r.phase with
    | .polling =>
      some (r.finish (.error (r.endpoint.failure
        s!"descriptor {descriptor} reported error or hang-up")))
    | _ => none
  | .pollFailed e =>
    match r.phase with
    | .polling => some (r.finish (.error (.io (.os e))))
    | _ => none
  | .read outcome =>
    match r.phase with
    | .reading (left + 1) => r.read left outcome
    | _ => none
  | .readStop =>
    match r.phase, r.stops.wait Notifier.stopSignal with
    | .stopping, (.done true, stops) => some ({ r with stops, stopped := true }.finish (.ok ()))
    | .stopping, (.done false, stops) => some { r with stops, phase := .polling }
    | .stopping, (.refused e, stops) => some ({ r with stops }.finish (.error (.io (.os e))))
    | _, _ => none

/-- A run of acts; none if one of them cannot happen. -/
def run (r : Receiver) (acts : List Act) : Option Receiver := acts.foldlM act r

/-- The act that the loop does next when reads meet no obstacle, unless it has to wait. -/
def due? (r : Receiver) : Option Act :=
  match r.phase with
  | .polling =>
    if r.waiting ≠ [] then some .reportSocket
    else if r.stops.isReadable then some .reportStop
    else none
  | .reading _ => some (.read (if r.waiting ≠ [] then .datagram else .wouldBlock))
  | .stopping => some .readStop
  | .fresh | .ended _ => none

/-- Does what is due, at most `limit` times. -/
def settleWithin : (limit : Nat) → Receiver → Receiver
  | 0, r => r
  | limit + 1, r =>
    match r.due?.bind r.act with
    | some r => settleWithin limit r
    | none => r

/-- Lets the loop go on until it waits or ends: every datagram needs at most a report and a read,
and the batch and the order to stop two acts each. -/
def settle (r : Receiver) : Receiver := r.settleWithin (2 * r.waiting.length + 4)

/-- Does an act and lets the loop go on. -/
def perform (r : Receiver) (a : Act) : Receiver := ((r.act a).getD r).settle

def isRunning (r : Receiver) : Bool :=
  match r.phase with
  | .fresh | .ended _ => false
  | _ => true

/-- The buffer keeps its length. -/
theorem length_fill (buffer payload : List UInt8) :
    (fill buffer payload).length = buffer.length := by
  simp only [fill, List.length_append, List.length_take, List.length_drop]
  omega

/-- What is queued are the first bytes of the datagram, and none that an earlier one left in
the buffer. -/
theorem take_fill (buffer payload : List UInt8) :
    (fill buffer payload).take (min payload.length buffer.length) = payload.take buffer.length := by
  rw [fill, List.take_append_of_le_length (by simp [Nat.min_comm]), List.take_take]
  by_cases h : payload.length ≤ buffer.length
  · simp [Nat.min_eq_left h, List.take_of_length_le h]
  · simp [Nat.min_eq_right (Nat.le_of_not_le h)]

end Receiver

end SessionDispatch
