import Mathlib
import SessionDispatch.Endpoint.Receiver
import SessionDispatch.Proofs.Queue.Taking
import SessionDispatch.Proofs.Run

/-!
# What receive loops pass on

Datagrams are queued in the order in which the socket holds them, each cut to the length of the
buffer, and nothing of an earlier one is queued with them. What happens at the queue has no
influence on the loop: a queue that is closed loses what is read, but does not end it. The loop ends
without failure when it reads the order to stop, and only then.
-/

namespace SessionDispatch.Receiver

variable {r r' : Receiver} {a : Act} {acts : List Act}

def fresh (endpoint : Endpoint) (inbound : Queue Packet) : Receiver := { endpoint, inbound }

/-! ## What one act does -/

structure Sound (r : Receiver) : Prop where
  stops : r.stops.semaphore = true ∧ r.stops.nonblocking = false
  buffer : r.isRunning = true → r.buffer.length = r.endpoint.bufferSize

/-- The ways in which a read can turn out, with some reads left in the batch. -/
inductive Reads (r : Receiver) (left : Nat) : Outcome → Receiver → Prop
  | datagram {d : Packet} {waiting : List Packet} (hd : r.waiting = d :: waiting) :
      Reads r left .datagram (({ r with waiting }.accept d).resume left)
  | wouldBlock : Reads r left .wouldBlock (r.resume 0)
  | interrupted : Reads r left .interrupted (r.resume left)
  | undelivered : Reads r left .undelivered
      ({ r with metrics := r.metrics ++ [Metric.receiveError] }.resume left)
  | unaddressed {payload : List UInt8} :
      Reads r left (.unaddressed payload) ({ r with buffer := fill r.buffer payload }.resume left)
  | failed {e : OsError} :
      Reads r left (.failed e) ({ r with metrics := r.metrics ++ [Metric.receiveError] }.finish
        (.error (r.endpoint.failure s!"receive failed: {e.message}")))

theorem reads_of_read {left : Nat} {outcome : Outcome} (h : r.read left outcome = some r') :
    Reads r left outcome r' := by
  cases outcome with
  | datagram =>
      cases hd : r.waiting with
      | nil => simp [read, hd] at h
      | cons d waiting =>
          simp only [read, hd, Option.some.injEq] at h
          subst h
          exact .datagram hd
  | wouldBlock =>
      obtain rfl := Option.some.inj h
      exact .wouldBlock
  | interrupted =>
      obtain rfl := Option.some.inj h
      exact .interrupted
  | undelivered =>
      obtain rfl := Option.some.inj h
      exact .undelivered
  | unaddressed payload =>
      obtain rfl := Option.some.inj h
      exact .unaddressed
  | failed e =>
      obtain rfl := Option.some.inj h
      exact .failed

/-- The ways in which an act can happen. -/
inductive Happens (r : Receiver) : Act → Receiver → Prop
  | arrive {d : Packet} : Happens r (.arrive d) { r with waiting := r.waiting ++ [d] }
  | stop : Happens r .stop { r with stops.counter := r.stops.counter + 1 }
  | closeQueue : Happens r .closeQueue { r with inbound := r.inbound.close }
  | takeQueued : Happens r .takeQueued { r with inbound := r.inbound.take.2 }
  | queueElsewhere {p : Packet} : Happens r
      (.queueElsewhere p) { r with inbound := (r.inbound.push p).2 }
  | start (hp : r.isRunning = false) :
      Happens r .start
        { r with
          phase := .polling
          buffer := List.replicate r.endpoint.bufferSize 0
          metrics := r.metrics ++ [.endpointStarted] }
  | reportSocket
      (hp : r.phase = .polling) : Happens r .reportSocket { r with phase := .reading batchSize }
  | reportStop (hp : r.phase = .polling) : Happens r .reportStop { r with phase := .stopping }
  | stir (hp : r.phase = .polling) : Happens r .stir r
  | reportBroken {descriptor : Nat} (hp : r.phase = .polling) :
      Happens r (.reportBroken descriptor) (r.finish (.error (r.endpoint.failure
        s!"descriptor {descriptor} reported error or hang-up")))
  | pollFailed {e : OsError} (hp : r.phase = .polling) :
      Happens r (.pollFailed e) (r.finish (.error (.io (.os e))))
  | read {left : Nat} {outcome : Outcome} {r' : Receiver} (hp : r.phase = .reading (left + 1))
      (hr : Reads r left outcome r') : Happens r (.read outcome) r'
  | readStop (hp : r.phase = .stopping) (hs : 0 < r.stops.counter) :
      Happens r .readStop
        ({ r with stops.counter := r.stops.counter - 1, stopped := true }.finish (.ok ()))

theorem Sound.happens (hs : r.Sound) (ha : r.act a = some r') : Happens r a r' := by
  cases a with
  | arrive d =>
      obtain rfl := Option.some.inj ha
      exact .arrive
  | stop =>
      simp only [act] at ha
      split at ha
      case h_1 n hn =>
          obtain rfl := Option.some.inj ha
          rw [Notifier.eq_of_notify hn]
          exact .stop
      case h_2 => cases ha
  | closeQueue =>
      obtain rfl := Option.some.inj ha
      exact .closeQueue
  | takeQueued =>
      obtain rfl := Option.some.inj ha
      exact .takeQueued
  | queueElsewhere p =>
      obtain rfl := Option.some.inj ha
      exact .queueElsewhere
  | start =>
      cases hp : r.phase with
      | fresh | ended _ =>
          simp only [act, hp, Option.some.injEq] at ha
          subst ha
          exact .start (by simp [isRunning, hp])
      | polling | reading _ | stopping => simp [act, hp] at ha
  | reportSocket =>
      cases hp : r.phase <;> simp only [act, hp] at ha <;> cases ha
      exact .reportSocket hp
  | reportStop =>
      cases hp : r.phase <;> simp only [act, hp] at ha <;> cases ha
      exact .reportStop hp
  | stir =>
      cases hp : r.phase <;> simp only [act, hp] at ha <;> cases ha
      exact .stir hp
  | reportBroken descriptor =>
      cases hp : r.phase <;> simp only [act, hp] at ha <;> cases ha
      exact .reportBroken hp
  | pollFailed e =>
      cases hp : r.phase <;> simp only [act, hp] at ha <;> cases ha
      exact .pollFailed hp
  | read outcome =>
      cases hp : r.phase with
      | reading left =>
          cases left with
          | zero => simp [act, hp] at ha
          | succ left =>
              simp only [act, hp] at ha
              exact .read hp (reads_of_read ha)
      | fresh | polling | stopping | ended _ => simp [act, hp] at ha
  | readStop =>
      cases hp : r.phase with
      | stopping =>
          rcases Nat.eq_zero_or_pos r.stops.counter with hz | hc
          · simp [act, hp, Notifier.wait, Notifier.read, Notifier.defer, hz, hs.stops.2] at ha
          · simp only [act, hp, Notifier.wait_of_semaphore hs.stops.1 hc, Option.some.injEq] at ha
            subst ha
            exact .readStop hp hc
      | fresh | polling | reading _ | ended _ => simp [act, hp] at ha

theorem sound_fresh (e : Endpoint) (q : Queue Packet) : (fresh e q).Sound := ⟨⟨rfl, rfl⟩, nofun⟩

theorem isRunning_reading {left : Nat} (hp : r.phase = .reading left) : r.isRunning = true := by
  unfold isRunning
  rw [hp]

theorem Sound.act (hs : r.Sound) (ha : r.act a = some r') : r'.Sound := by
  cases hs.happens ha with
  | arrive | stop | closeQueue | takeQueued | queueElsewhere | stir _ => exact ⟨hs.stops, hs.buffer⟩
  | start _ => exact ⟨hs.stops, fun _ => List.length_replicate⟩
  | reportSocket hp | reportStop hp =>
      refine ⟨hs.stops, fun _ => hs.buffer ?_⟩
      unfold isRunning
      rw [hp]
  | reportBroken _ | pollFailed _ | readStop _ _ => exact ⟨hs.stops, nofun⟩
  | read hp hr =>
      have hb := hs.buffer (isRunning_reading hp)
      cases hr with
      | datagram _ => exact ⟨hs.stops, fun _ => (length_fill ..).trans hb⟩
      | unaddressed => exact ⟨hs.stops, fun _ => (length_fill ..).trans hb⟩
      | wouldBlock | interrupted | undelivered => exact ⟨hs.stops, fun _ => hb⟩
      | failed => exact ⟨hs.stops, nofun⟩

/-! ## Datagrams and records -/

def Act.arriving? : Act → Option Packet
  | .arrive d => some d
  | _ => none

def reading? (r : Receiver) : Act → Option Packet
  | .read .datagram => r.waiting.head?
  | _ => none

/-- The record that the queue gets by an act, and whether it comes from this loop. -/
def entering? (r : Receiver) : Act → Option (Bool × Packet)
  | .read .datagram =>
      if r.inbound.closed then none else r.waiting.head?.map fun d => (true, r.endpoint.cut d)
  | .queueElsewhere p => if r.inbound.closed then none else some (false, p)
  | _ => none

/-- The record that another thread takes from the queue. -/
def taking? (r : Receiver) : Act → Option Packet
  | .takeQueued => r.inbound.take.1
  | _ => none

structure Passes (r : Receiver) (a : Act) (r' : Receiver) : Prop where
  endpoint : r'.endpoint = r.endpoint
  arrived : r'.received ++ r'.waiting = r.received ++ r.waiting ++ a.arriving?.toList
  received : r'.received = r.received ++ (r.reading? a).toList
  queued : r'.queued = r.queued ++ if r.inbound.closed then []
    else (r.reading? a).toList.map r.endpoint.cut
  closed : r'.inbound.closed = true ↔ r.inbound.closed = true ∨ a = .closeQueue
  flows : Queue.Flows r.inbound ((r.entering? a).toList.map (·.2)) (r.taking? a).toList r'.inbound

/-- Most acts leave datagrams and records alone. -/
theorem Passes.of_same (hw : r'.waiting = r.waiting) (hrec : r'.received = r.received)
    (hq : r'.queued = r.queued) (he : r'.endpoint = r.endpoint) (hi : r'.inbound = r.inbound)
    (ha : a.arriving? = none) (hr : r.reading? a = none) (hen : r.entering? a = none)
    (ht : r.taking? a = none) (hne : a ≠ .closeQueue) : Passes r a r' where
  endpoint := he
  arrived := by rw [hw, hrec, ha, Option.toList_none, List.append_nil]
  received := by rw [hrec, hr, Option.toList_none, List.append_nil]
  queued := by rw [hq, hr, Option.toList_none, List.map_nil, ite_self, List.append_nil]
  closed := by rw [hi, or_iff_left hne]
  flows := by
    rw [hi, hen, ht]
    exact .of_same rfl rfl

/-- A datagram is queued as its first bytes, as many as the buffer holds. -/
theorem Sound.passes_accept (hs : r.Sound) (hrun : r.isRunning = true) {d : Packet}
    {waiting : List Packet} {left : Nat} (hd : r.waiting = d :: waiting) :
    Passes r (.read .datagram) (({ r with waiting }.accept d).resume left) := by
  have hreading : r.reading? (.read .datagram) = some d := by
    rw [reading?, hd]
    rfl
  have hcut :
      (⟨d.peer, (fill r.buffer d.payload).take (min d.payload.length r.buffer.length)⟩ : Packet) =
      r.endpoint.cut d := by rw [take_fill, hs.buffer hrun, Endpoint.cut]
  have hflows := Queue.Flows.push r.inbound (r.endpoint.cut d)
  cases hc : r.inbound.closed with
  | true =>
      have hpush := Queue.push_of_closed hc (r.endpoint.cut d)
      constructor
      case flows => simpa [resume, accept, hcut, hc, entering?, taking?] using hflows
      all_goals simp [resume, accept, hcut, hpush, hreading, hc, Act.arriving?, hd]
  | false =>
      have hpush := Queue.push_of_open hc (r.endpoint.cut d)
      constructor
      case flows => simpa [resume, accept, hcut, hc, entering?, taking?, hd] using hflows
      all_goals simp [resume, accept, hcut, hpush, hreading, hc, Act.arriving?, hd]

/-- What others do at the queue leaves the socket and the loop alone. -/
theorem Passes.of_queue {inbound : Queue Packet} (ha : a.arriving? = none)
    (hr : r.reading? a = none)
    (hc : inbound.closed = true ↔ r.inbound.closed = true ∨ a = .closeQueue)
    (hf : Queue.Flows r.inbound ((r.entering? a).toList.map (·.2)) (r.taking? a).toList inbound) :
    Passes r a { r with inbound } where
  endpoint := rfl
  arrived := by rw [ha, Option.toList_none, List.append_nil]
  received := by rw [hr, Option.toList_none, List.append_nil]
  queued := by rw [hr, Option.toList_none, List.map_nil, ite_self, List.append_nil]
  closed := hc
  flows := hf

theorem Sound.passes (hs : r.Sound) (h : Happens r a r') : Passes r a r' := by
  cases h with
  | arrive =>
      exact ⟨rfl, (List.append_assoc ..).symm, (List.append_nil _).symm, by simp [reading?],
        (or_iff_left nofun).symm, .of_same rfl rfl⟩
  | closeQueue => exact .of_queue rfl rfl (iff_of_true rfl (.inr rfl)) (.of_same rfl rfl)
  | takeQueued =>
      refine .of_queue rfl rfl ?_ (.take _)
      rw [or_iff_left nofun, Queue.take_closed]
  | @queueElsewhere p =>
      refine .of_queue rfl rfl ?_ ?_
      · rw [or_iff_left nofun, Queue.push_closed]
      · have hentering : (r.entering? (.queueElsewhere p)).toList.map (·.2) =
            if r.inbound.closed then [] else [p] := by
          rw [entering?]
          split_ifs <;> rfl
        rw [hentering]
        exact .push _ _
  | stop | start _ | reportSocket _ | reportStop _ | stir _ | reportBroken _ | pollFailed _
  | readStop _ _ =>
      exact .of_same rfl rfl rfl rfl rfl rfl rfl rfl rfl nofun
  | read hp hr =>
      cases hr with
      | datagram hd => exact hs.passes_accept (isRunning_reading hp) hd
      | wouldBlock | interrupted | undelivered | unaddressed | failed =>
          exact .of_same rfl rfl rfl rfl rfl rfl rfl rfl rfl nofun

/-- All records that the queue gets in a run, in order. -/
def entries : Receiver → List Act → List (Bool × Packet) := Run.observe act entering?

/-- All records that other threads take in a run, in order. -/
def takings : Receiver → List Act → List Packet := Run.observe act taking?

theorem own_entering (r : Receiver) (a : Act) :
    ((r.entering? a).toList.filter (·.1)).map (·.2) =
      if r.inbound.closed then [] else (r.reading? a).toList.map r.endpoint.cut := by
  cases hc : r.inbound.closed <;> cases a with
  | read outcome => cases outcome <;> cases hw : r.waiting <;> simp [entering?, reading?, hc, hw]
  | queueElsewhere p => simp [entering?, reading?, hc]
  | _ => simp [entering?, reading?]

/-- Where the datagrams of a run are, and what has become of the records made of them. -/
structure Passed (e : Endpoint) (q : Queue Packet) (acts : List Act) (r : Receiver) : Prop where
  endpoint : r.endpoint = e
  arrived : acts.filterMap Act.arriving? = r.received ++ r.waiting
  queued : r.inbound.closed = false → r.queued = r.received.map e.cut
  own : r.queued = ((entries (fresh e q) acts).filter (·.1)).map (·.2)
  flows : Queue.Flows q ((entries (fresh e q) acts).map (·.2)) (takings (fresh e q) acts) r.inbound

theorem Passed.concat {e : Endpoint} {q : Queue Packet} (hp : Passed e q acts r)
    (hr : (fresh e q).run acts = some r) (h : Passes r a r') : Passed e q (acts ++ [a]) r' := by
  have hentries :
      entries (fresh e q) (acts ++ [a]) = entries (fresh e q) acts ++ (entering? r a).toList :=
    Run.observe_concat entering? hr a
  have htakings :
      takings (fresh e q) (acts ++ [a]) = takings (fresh e q) acts ++ (taking? r a).toList :=
    Run.observe_concat taking? hr a
  constructor
  · exact h.endpoint.trans hp.endpoint
  · rw [h.arrived, List.filterMap_append, hp.arrived]
    cases ha : a.arriving? <;> simp [ha]
  · intro ho
    have hopen : r.inbound.closed = false :=
      Bool.eq_false_iff.mpr fun hc => absurd (h.closed.mpr (.inl hc)) (Bool.eq_false_iff.mp ho)
    rw [h.queued, h.received, if_neg (Bool.eq_false_iff.mp hopen), hp.queued hopen, hp.endpoint,
      List.map_append]
  · rw [hentries, List.filter_append, List.map_append, own_entering, h.queued, ← hp.own]
  · rw [hentries, htakings, List.map_append]
    exact hp.flows.trans h.flows

theorem passed_run {e : Endpoint} {q : Queue Packet} (hr : (fresh e q).run acts = some r) :
    r.Sound ∧ Passed e q acts r := by
  induction acts using List.reverseRecOn generalizing r with
  | nil =>
      obtain rfl := Option.some.inj hr
      exact ⟨sound_fresh e q, rfl, rfl, fun _ => rfl, rfl, .of_same rfl rfl⟩
  | append_singleton acts a ih =>
      obtain ⟨u, hu, ha⟩ := Run.foldlM_concat_eq_some hr
      obtain ⟨hs, hp⟩ := ih hu
      exact ⟨hs.act ha, hp.concat hu (hs.passes (hs.happens ha))⟩

/-- A closed queue gets nothing more. -/
theorem queued_of_closed (hs : r.Sound) (hc : r.inbound.closed = true) (hr : r.run acts = some r') :
    r'.queued = r.queued := by
  refine (Run.invariant (fun t => t.Sound ∧ t.inbound.closed = true ∧ t.queued = r.queued) ?_
    ⟨hs, hc, rfl⟩ hr).2.2
  rintro t a t' ⟨ht, hc, hq⟩ ha
  have hp := ht.passes (ht.happens ha)
  refine ⟨ht.act ha, hp.closed.mpr (.inl hc), ?_⟩
  rw [hp.queued, if_pos hc, List.append_nil, hq]

/-! ## Batches -/

def Phase.left : Phase → Nat
  | .reading left => left
  | _ => 0

def Act.isRead : Act → Bool
  | .read _ => true
  | _ => false

theorem left_resume (r : Receiver) (left : Nat) : (r.resume left).phase.left = left := by
  unfold resume
  split_ifs with h
  · exact h.symm
  · rfl

theorem left_reads {left : Nat} {outcome : Outcome} (h : Reads r left outcome r') :
    r'.phase.left ≤ left := by
  cases h with
  | wouldBlock => exact (left_resume r 0).trans_le (Nat.zero_le _)
  | failed => exact Nat.zero_le _
  | datagram _ | interrupted | undelivered | unaddressed => exact Nat.le_of_eq (left_resume _ _)

/-- Only the report of the socket begins a batch, and every read takes one from it. -/
theorem left_happens (h : Happens r a r') :
    (if a.isRead then 1 else 0) + r'.phase.left ≤ if a = .reportSocket then batchSize
    else r.phase.left := by
  cases h with
  | @read left outcome _ hp hr =>
      have hle := left_reads hr
      have hread : (Act.read outcome).isRead = true := rfl
      rw [hp, if_pos hread, if_neg nofun]
      exact (Nat.add_comm ..).trans_le (Nat.succ_le_succ hle)
  | reportSocket _ | arrive | stop | closeQueue | takeQueued | queueElsewhere | stir _ =>
      exact Nat.le_of_eq (Nat.zero_add _)
  | start _ | reportStop _ | reportBroken _ | pollFailed _ | readStop _ _ => exact Nat.zero_le _

theorem left_le_run (hs : r.Sound) (hl : r.phase.left ≤ batchSize) (hr : r.run acts = some r') :
    r'.phase.left ≤ batchSize := by
  refine (Run.invariant (fun t => t.Sound ∧ t.phase.left ≤ batchSize) ?_ ⟨hs, hl⟩ hr).2
  rintro t a t' ⟨ht, hl⟩ ha
  have hle := left_happens (ht.happens ha)
  refine ⟨ht.act ha, ?_⟩
  split_ifs at hle <;> omega

theorem reads_le_left (hs : r.Sound) (hno : .reportSocket ∉ acts) (hr : r.run acts = some r') :
    acts.countP Act.isRead ≤ r.phase.left := by
  induction acts generalizing r with
  | nil => exact Nat.zero_le _
  | cons a acts ih =>
      obtain ⟨u, ha, hu⟩ := Run.foldlM_cons_eq_some hr
      obtain ⟨hne, hno⟩ := List.ne_and_not_mem_of_not_mem_cons hno
      have hrest := ih (hs.act ha) hno hu
      have hone := left_happens (hs.happens ha)
      rw [if_neg hne.symm] at hone
      rw [List.countP_cons]
      omega

/-! ## The order to stop -/

/-- The order to stop is read by the loop, which ends with it, or is pending. -/
structure Stops (acts : List Act) (r : Receiver) : Prop where
  told : acts.count .stop = acts.count .readStop + r.stops.counter
  stopped : r.stopped = true ↔ .readStop ∈ acts
  ended : r.phase = .ended (.ok ()) → r.stopped = true
  last : ∀ before after, acts = before ++ .readStop :: after → .start ∉ after →
    r.phase = .ended (.ok ()) ∧ ∀ outcome, .read outcome ∉ after

theorem told_happens (h : Happens r a r') :
    [a].count .stop + r.stops.counter = [a].count .readStop + r'.stops.counter := by
  cases h with
  | stop => exact (Nat.add_comm ..).trans (Nat.zero_add _).symm
  | readStop _ hs => exact (Nat.zero_add _).trans (Nat.add_sub_cancel' hs).symm
  | read _ hr => cases hr <;> simp [accept, resume, finish]
  | arrive | closeQueue | takeQueued | queueElsewhere | start _ | reportSocket _ | reportStop _
  | stir _ | reportBroken _ | pollFailed _ => simp [finish]

theorem stopped_happens (h : Happens r a r') :
    r'.stopped = true ↔ r.stopped = true ∨ a = .readStop := by
  cases h with
  | readStop _ _ => exact iff_of_true rfl (.inr rfl)
  | read _ hr => cases hr <;> exact (or_iff_left nofun).symm
  | arrive | stop | closeQueue | takeQueued | queueElsewhere | start _ | reportSocket _
  | reportStop _ | stir _ | reportBroken _ | pollFailed _ => exact (or_iff_left nofun).symm

theorem resume_ne_ended (r : Receiver) (left : Nat) (outcome : Except Failure Unit) :
    (r.resume left).phase ≠ .ended outcome := by
  unfold resume
  split_ifs <;> exact nofun

/-- Without failure the loop ends by reading the order to stop only. -/
theorem ended_happens (h : Happens r a r') (he : r'.phase = .ended (.ok ())) :
    a = .readStop ∨ r.phase = .ended (.ok ()) := by
  cases h with
  | readStop _ _ => exact .inl rfl
  | read _ hr =>
      cases hr with
      | failed => cases he
      | datagram _ | wouldBlock | interrupted | undelivered | unaddressed =>
          exact absurd he (resume_ne_ended _ _ _)
  | arrive | stop | closeQueue | takeQueued | queueElsewhere | stir _ => exact .inr he
  | start _ | reportSocket _ | reportStop _ | reportBroken _ | pollFailed _ => cases he

theorem rests_happens {outcome : Except Failure Unit} (hp : r.phase = .ended outcome)
    (h : Happens r a r') (hne : a ≠ .start) : r'.phase = .ended outcome ∧ ∀ o, a ≠ .read o := by
  cases h with
  | arrive | stop | closeQueue | takeQueued | queueElsewhere => exact ⟨hp, nofun⟩
  | start _ => exact absurd rfl hne
  | reportSocket h | reportStop h | stir h | reportBroken h | pollFailed h | read h _
  | readStop h _ =>
      cases hp.symm.trans h

theorem Stops.concat (hst : Stops acts r) (h : Happens r a r') : Stops (acts ++ [a]) r' := by
  constructor
  · rw [List.count_append, List.count_append, hst.told]
    have hone := told_happens h
    omega
  · rw [stopped_happens h, hst.stopped, List.mem_append, List.mem_singleton, eq_comm (a := a)]
  · intro he
    rw [stopped_happens h]
    exact (ended_happens h he).symm.imp_left hst.ended
  · intro before after hsplit hno
    obtain ⟨rest, rfl, hacts⟩ | ⟨-, rfl, rfl⟩ := Run.concat_eq_append_cons.mp hsplit
    · rw [List.mem_append, List.mem_singleton, not_or] at hno
      obtain ⟨hp, hreads⟩ := hst.last before rest hacts hno.1
      obtain ⟨hp', hread⟩ := rests_happens hp h (Ne.symm hno.2)
      refine ⟨hp', fun outcome hm => ?_⟩
      rcases List.mem_append.mp hm with hm | hm
      · exact hreads outcome hm
      · exact hread outcome (List.mem_singleton.mp hm).symm
    · refine ⟨?_, fun _ => List.not_mem_nil⟩
      cases h
      rfl

theorem stops_run {e : Endpoint} {q : Queue Packet} (hr : (fresh e q).run acts = some r) :
    Stops acts r := by
  induction acts using List.reverseRecOn generalizing r with
  | nil =>
      obtain rfl := Option.some.inj hr
      exact ⟨rfl, ⟨nofun, nofun⟩, nofun, fun before after h => by simp at h⟩
  | append_singleton acts a ih =>
      obtain ⟨u, hu, ha⟩ := Run.foldlM_concat_eq_some hr
      exact (ih hu).concat ((passed_run hu).1.happens ha)

/-! ## What happens at the queue -/

def Act.isAtQueue : Act → Bool
  | .closeQueue | .takeQueued | .queueElsewhere _ => true
  | _ => false

def atQueue (r : Receiver) (inbound : Queue Packet) (queued : List Packet) : Receiver :=
  { r with inbound, queued }

theorem isAtQueue_happens (h : Happens r a r') (ha : a.isAtQueue = true) (q : Queue Packet)
    (queued : List Packet) :
    r'.atQueue q queued = r.atQueue q queued := by
  cases h with
  | closeQueue | takeQueued | queueElsewhere => rfl
  | arrive | stop | start _ | reportSocket _ | reportStop _ | stir _ | reportBroken _
  | pollFailed _ | read _ _ | readStop _ _ => cases ha

theorem read_atQueue {left : Nat} {outcome : Outcome} (h : Reads r left outcome r')
    (q : Queue Packet) (queued : List Packet) :
    ∃ q' queued', (r.atQueue q queued).read left outcome = some (r'.atQueue q' queued') := by
  cases h with
  | @datagram d waiting hd =>
      let accepted := ({ r with waiting }.atQueue q queued).accept d
      refine ⟨accepted.inbound, accepted.queued, ?_⟩
      rw [read, atQueue, hd]
      rfl
  | wouldBlock | interrupted | undelivered | unaddressed | failed => exact ⟨q, queued, rfl⟩

/-- Whatever the queue holds, and whether it is closed or not, the loop does the same. -/
theorem Sound.act_atQueue (hs : r.Sound) (ha : r.act a = some r') (hq : a.isAtQueue = false)
    (q : Queue Packet) (queued : List Packet) :
    ∃ q' queued', (r.atQueue q queued).act a = some (r'.atQueue q' queued') := by
  have h := hs.happens ha
  cases h with
  | arrive => exact ⟨q, queued, rfl⟩
  | stop =>
      simp only [Receiver.act] at ha
      split at ha
      case h_1 n hn =>
          refine ⟨q, queued, ?_⟩
          rw [← Option.some.inj ha]
          simp only [Receiver.act, atQueue, hn]
      case h_2 => cases ha
  | closeQueue | takeQueued | queueElsewhere => cases hq
  | start _ =>
      refine ⟨q, queued, ?_⟩
      cases hp : r.phase with
      | fresh | ended _ => simp only [Receiver.act, atQueue, hp]
      | polling | reading _ | stopping => simp [Receiver.act, hp] at ha
  | stir hp =>
      refine ⟨q, queued, ?_⟩
      rw [Receiver.act, atQueue, hp]
  | reportSocket hp | reportStop hp | reportBroken hp | pollFailed hp =>
      refine ⟨q, queued, ?_⟩
      rw [Receiver.act, atQueue, hp]
      rfl
  | read hp hr =>
      obtain ⟨q', queued', hread⟩ := read_atQueue hr q queued
      refine ⟨q', queued', ?_⟩
      rw [← hread, Receiver.act, atQueue, hp]
  | readStop hp hc =>
      refine ⟨q, queued, ?_⟩
      rw [Receiver.act, atQueue, hp, Notifier.wait_of_semaphore hs.stops.1 hc]
      rfl

/-- A run is a run of the same loop at any other queue, at which nobody does anything. -/
theorem run_atQueue (hs : r.Sound) (hr : r.run acts = some r') (q : Queue Packet)
    (queued : List Packet) :
    ∃ q' queued', (r.atQueue q queued).run (acts.filter (!·.isAtQueue)) =
      some (r'.atQueue q' queued') := by
  induction acts generalizing r q queued with
  | nil =>
      obtain rfl := Option.some.inj hr
      exact ⟨q, queued, rfl⟩
  | cons a acts ih =>
      obtain ⟨u, ha, hu⟩ := Run.foldlM_cons_eq_some hr
      have hsu := hs.act ha
      cases hq : a.isAtQueue with
      | true =>
          rw [List.filter_cons_of_neg (by simp [hq]),
            ← isAtQueue_happens (hs.happens ha) hq q queued]
          exact ih hsu hu q queued
      | false =>
          obtain ⟨q', queued', ha'⟩ := hs.act_atQueue ha hq q queued
          obtain ⟨q'', queued'', hu'⟩ := ih hsu hu q' queued'
          refine ⟨q'', queued'', ?_⟩
          rw [List.filter_cons_of_pos (by simp [hq]), run, List.foldlM_cons, ha']
          exact hu'

/-! ## Runs of a receive loop -/

/-- What a receive loop passes on: the datagrams that it read, in the order in which the socket got
them, each with its source and as much of its payload as the buffer holds. A closed queue takes
nothing of it, and an open one all. -/
structure PassesOn (e : Endpoint) (q : Queue Packet) (acts : List Act) (r : Receiver) : Prop where
  arrived : acts.filterMap Act.arriving? = r.received ++ r.waiting
  queued : r.inbound.closed = false → (r.queued.map fun p => (p.peer, p.key, p.payload)) =
    r.received.map fun d =>
      (d.peer, .ofAddress d.peer, d.payload.take (min d.payload.length e.bufferSize))
  late : ∀ before after u, acts = before ++ after → (fresh e q).run before = some u →
    u.inbound.closed = true →
    r.queued = u.queued
  content : r.queued = ((entries (fresh e q) acts).filter (·.1)).map (·.2) ∧
    Queue.Flows q ((entries (fresh e q) acts).map (·.2)) (takings (fresh e q) acts) r.inbound
  batches : ∀ before mid after, acts = before ++ mid ++ after → .reportSocket ∉ mid →
    mid.countP Act.isRead ≤ 32
  undisturbed : ∀ q' : Queue Packet, ∃ q'' queued,
    (fresh e q').run (acts.filter (!·.isAtQueue)) = some (r.atQueue q'' queued)
  stops : Stops acts r

theorem passes_on_until_stopped (e : Endpoint) (q : Queue Packet) (acts : List Act)
    (hr : (fresh e q).run acts = some r) : PassesOn e q acts r := by
  obtain ⟨hs, hp⟩ := passed_run hr
  constructor
  · exact hp.arrived
  · intro ho
    rw [hp.queued ho, List.map_map]
    refine List.map_congr_left fun d _ => ?_
    simp only [Function.comp_apply, Endpoint.cut, Packet.key, Prod.mk.injEq, true_and]
    rw [Nat.min_comm, ← List.take_eq_take_min]
  · rintro before after u rfl hu hc
    obtain ⟨u', hu', hafter⟩ := Run.foldlM_append_eq_some hr
    obtain rfl := Option.some.inj (hu'.symm.trans hu)
    exact queued_of_closed (passed_run hu).1 hc hafter
  · exact ⟨hp.own, hp.flows⟩
  · rintro before mid after rfl hno
    rw [List.append_assoc] at hr
    obtain ⟨u, hu, hrest⟩ := Run.foldlM_append_eq_some hr
    obtain ⟨v, hv, -⟩ := Run.foldlM_append_eq_some hrest
    have hleft := left_le_run (sound_fresh e q) (Nat.zero_le _) hu
    exact (reads_le_left (passed_run hu).1 hno hv).trans hleft
  · intro q'
    exact run_atQueue (sound_fresh e q) hr q' []
  · exact stops_run hr

/-- A datagram longer than the buffer, an empty one behind it, and an order to stop that is pending
all the while. The queue is closed before the last datagram is read. -/
def lastDatagram : List Act :=
  [.arrive ⟨.v4 .loopback 500, [1, 2, 3]⟩, .arrive ⟨.v4 .loopback 501, []⟩, .stop, .start,
    .reportSocket, .read .datagram, .read .interrupted, .read .datagram, .read .wouldBlock,
    .closeQueue, .arrive ⟨.v4 .loopback 500, [4]⟩, .reportSocket, .read .datagram,
    .read .wouldBlock, .reportStop, .readStop]

theorem passes_on_until_stopped_lastDatagram :
    ∃ r, (fresh ⟨0, .v4 .loopback 4500, 2⟩ (.new .fifo)).run lastDatagram = some r ∧
      PassesOn ⟨0, .v4 .loopback 4500, 2⟩ (.new .fifo) lastDatagram r ∧ r.stopped = true ∧
      r.queued = [⟨.v4 .loopback 500, [1, 2]⟩, ⟨.v4 .loopback 501, []⟩] := by
  refine ⟨_, rfl, ?_, rfl, rfl⟩
  exact passes_on_until_stopped _ _ lastDatagram rfl

end SessionDispatch.Receiver
