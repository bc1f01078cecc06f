import Mathlib
import SessionDispatch.Endpoint.Sender
import SessionDispatch.Proofs.Endpoint.Receiving

/-!
# What send loops write

A send loop writes the records of its own family that it takes, in the order in which it takes them,
and each of them once, however often an attempt is interrupted; records of the other family are
dropped. It ends without failure when the queue is closed and empty. An attempt that fails ends it
too, and leaves everything but the one record where it was: other send loops find the rest in the
queue, and the receive loop goes on as if there were no send loop.
-/

namespace SessionDispatch.Sender

variable {s s' : Sender} {a : Act} {acts : List Act}

/-- A send loop that has taken nothing yet, beside a receive loop that was not started yet. -/
def fresh (e : Endpoint) (inbound outbound : Queue Packet) : Sender :=
  { receiver := .fresh e inbound, outbound }

/-! ## What one act does -/

/-- The loop after an attempt to send a record has failed. -/
def failed (s : Sender) (p : Packet) (cause : OsError) : Sender :=
  { s with
    phase := .ended (.error (sendFailure s.endpoint p cause))
    metrics := s.metrics ++ [.sendError] }

/-- The ways in which an act can happen. -/
inductive Happens (s : Sender) : Act → Sender → Prop
  | push {p : Packet} : Happens s (.push p) { s with outbound := (s.outbound.push p).2 }
  | close : Happens s .close { s with outbound := s.outbound.close }
  | takeElsewhere : Happens s .takeElsewhere { s with outbound := s.outbound.take.2 }
  | receive {b : Receiver.Act} {receiver : Receiver} (hb : s.receiver.act b = some receiver) :
      Happens s (.receive b) { s with receiver }
  | take {p : Packet} (hp : s.phase = .waiting) (ht : s.outbound.take.1 = some p)
      (hf : p.peer.family = s.endpoint.family) :
      Happens s .take
        { s with
          outbound := s.outbound.take.2
          taken := s.taken ++ [p]
          phase := .sending p }
  | drop {p : Packet} (hp : s.phase = .waiting) (ht : s.outbound.take.1 = some p)
      (hf : p.peer.family ≠ s.endpoint.family) :
      Happens s .take { s with outbound := s.outbound.take.2, taken := s.taken ++ [p] }
  | drained (hp : s.phase = .waiting) (hi : s.outbound.items = []) (hc : s.outbound.closed = true) :
      Happens s .take { s with phase := .ended (.ok ()) }
  | sent {p : Packet} (hp : s.phase = .sending p) :
      Happens s (.attempt .sent)
        { s with
          phase := .waiting
          written := s.written ++ [p]
          metrics := s.metrics ++ [.packetSent p.payload.length] }
  | interrupted {p : Packet} (hp : s.phase = .sending p) : Happens s (.attempt .interrupted) s
  | failed {p : Packet} {cause : OsError} (hp : s.phase = .sending p) :
      Happens s (.attempt (.failed cause)) (s.failed p cause)

theorem happens (ha : s.act a = some s') : Happens s a s' := by
  cases a with
  | push p =>
      obtain rfl := Option.some.inj ha
      exact .push
  | close =>
      obtain rfl := Option.some.inj ha
      exact .close
  | takeElsewhere =>
      obtain rfl := Option.some.inj ha
      exact .takeElsewhere
  | receive b =>
      obtain ⟨receiver, hb, rfl⟩ := Option.map_eq_some_iff.mp ha
      exact .receive hb
  | take =>
      cases hp : s.phase with
      | sending _ | ended _ => simp [act, hp] at ha
      | waiting =>
          rcases hq : s.outbound.take with ⟨_ | p, outbound⟩
          · simp only [act, hp, hq] at ha
            split_ifs at ha with hc
            obtain rfl := Option.some.inj ha
            exact .drained hp (s.outbound.take_eq_none_iff.mp (congrArg Prod.fst hq)) hc
          · simp only [act, hp, hq] at ha
            obtain rfl := Option.some.inj ha
            obtain rfl : s.outbound.take.2 = outbound := congrArg Prod.snd hq
            split_ifs with hf
            · exact .take hp (congrArg Prod.fst hq) hf
            · have hdrop := Happens.drop hp (congrArg Prod.fst hq) hf
              rwa [hp] at hdrop
  | attempt delivery =>
      cases hp : s.phase with
      | waiting | ended _ => simp [act, hp] at ha
      | sending p =>
          cases delivery <;> simp only [act, hp] at ha <;> obtain rfl := Option.some.inj ha
          · exact .sent hp
          · exact .interrupted hp
          · exact .failed hp

/-! ## Records that come and go -/

def Act.receiving? : Act → Option Receiver.Act
  | .receive b => some b
  | _ => none

def entering? (s : Sender) : Act → Option Packet
  | .push p => if s.outbound.closed then none else some p
  | _ => none

/-- The record that an act takes from the queue, and whether it is this loop that takes it. -/
def taking? (s : Sender) : Act → Option (Bool × Packet)
  | .take => s.outbound.take.1.map (true, ·)
  | .takeElsewhere => s.outbound.take.1.map (false, ·)
  | _ => none

/-- All records that the queue gets in a run, in order. -/
def entries : Sender → List Act → List Packet := Run.observe act entering?

/-- All records that are taken from the queue in a run, in order. -/
def takings : Sender → List Act → List (Bool × Packet) := Run.observe act taking?

structure Passes (s : Sender) (a : Act) (s' : Sender) : Prop where
  receiver : s.receiver.run a.receiving?.toList = some s'.receiver
  closed : s'.outbound.closed = true ↔ s.outbound.closed = true ∨ a = .close
  flows : Queue.Flows s.outbound (s.entering? a).toList ((s.taking? a).toList.map (·.2)) s'.outbound
  taken : s'.taken = s.taken ++ ((s.taking? a).toList.filter (·.1)).map (·.2)

/-- Most acts leave records alone. -/
theorem Passes.of_same (hr : s'.receiver = s.receiver) (hq : s'.outbound = s.outbound)
    (ht : s'.taken = s.taken) (ha : a.receiving? = none) (he : s.entering? a = none)
    (hta : s.taking? a = none) (hne : a ≠ .close) :
    Passes s a s' where
  receiver := by
    rw [ha, hr]
    rfl
  closed := by rw [hq, or_iff_left hne]
  flows := by
    rw [hq, he, hta]
    exact .of_same rfl rfl
  taken := by rw [ht, hta, Option.toList_none, List.filter_nil, List.map_nil, List.append_nil]

/-- The loop takes the record whose turn it is, of whichever family. -/
theorem passes_take {p : Packet} (ht : s.outbound.take.1 = some p) (phase : Phase) :
    Passes s .take { s with outbound := s.outbound.take.2, taken := s.taken ++ [p], phase } := by
  have htaking : s.taking? .take = some (true, p) := by
    rw [taking?, ht]
    rfl
  have hflows := Queue.Flows.take s.outbound
  rw [ht] at hflows
  constructor
  · rfl
  · rw [or_iff_left nofun, Queue.take_closed]
  · rw [htaking]
    exact hflows
  · rw [htaking]
    rfl

theorem Happens.passes (h : Happens s a s') : Passes s a s' := by
  cases h with
  | @push p =>
      have hentering : (s.entering? (.push p)).toList = if s.outbound.closed then [] else [p] := by
        rw [entering?]
        split_ifs <;> rfl
      refine ⟨rfl, ?_, ?_, (List.append_nil _).symm⟩
      · rw [or_iff_left (by simp), Queue.push_closed]
      · rw [hentering]
        exact .push _ _
  | close => exact ⟨rfl, iff_of_true rfl (.inr rfl), .of_same rfl rfl, (List.append_nil _).symm⟩
  | takeElsewhere =>
      have hflows := Queue.Flows.take s.outbound
      refine ⟨rfl, ?_, ?_, ?_⟩
      · rw [or_iff_left (by simp), Queue.take_closed]
      · cases ht : s.outbound.take.1 <;> rw [ht] at hflows <;>
          simpa [entering?, taking?, ht] using hflows
      · cases ht : s.outbound.take.1 <;> simp [taking?, ht]
  | receive hb =>
      refine ⟨?_, (or_iff_left (by simp)).symm, .of_same rfl rfl, (List.append_nil _).symm⟩
      rw [Act.receiving?, Option.toList_some, Receiver.run, List.foldlM_cons, hb]
      rfl
  | take _ ht _ => exact passes_take ht _
  | drop _ ht _ => exact passes_take ht _
  | drained _ hi _ =>
      have htaking : s.taking? .take = none := by
        rw [taking?, s.outbound.take_eq_none_iff.mpr hi]
        rfl
      exact .of_same rfl rfl rfl rfl rfl htaking (by simp)
  | sent _ | interrupted _ | failed _ => exact .of_same rfl rfl rfl rfl rfl rfl (by simp)

/-- What a run does with records: the receive loop does its own acts, and what the queue held and
got was taken by this loop and by others or is still there. -/
structure Passed (s : Sender) (acts : List Act) (s' : Sender) : Prop where
  receiver : s.receiver.run (acts.filterMap Act.receiving?) = some s'.receiver
  closed : s'.outbound.closed = true ↔ s.outbound.closed = true ∨ .close ∈ acts
  flows : Queue.Flows s.outbound (entries s acts) ((takings s acts).map (·.2)) s'.outbound
  taken : s'.taken = s.taken ++ ((takings s acts).filter (·.1)).map (·.2)

theorem passed_run (hr : s.run acts = some s') : Passed s acts s' := by
  induction acts using List.reverseRecOn generalizing s' with
  | nil =>
      obtain rfl := Option.some.inj hr
      exact ⟨rfl, (or_iff_left List.not_mem_nil).symm, .of_same rfl rfl, (List.append_nil _).symm⟩
  | append_singleton acts a ih =>
      obtain ⟨u, hu, ha⟩ := Run.foldlM_concat_eq_some hr
      have hp := ih hu
      have h := (happens ha).passes
      have hentries : entries s (acts ++ [a]) = entries s acts ++ (entering? u a).toList :=
        Run.observe_concat entering? hu a
      have htakings : takings s (acts ++ [a]) = takings s acts ++ (taking? u a).toList :=
        Run.observe_concat taking? hu a
      constructor
      · have hreceiving : [a].filterMap Act.receiving? = a.receiving?.toList := by
          cases hb : a.receiving? <;> simp [hb]
        have hrun : s.receiver.run (acts.filterMap Act.receiving? ++ a.receiving?.toList) =
            (s.receiver.run (acts.filterMap Act.receiving?)).bind
              (Receiver.run · a.receiving?.toList) :=
          List.foldlM_append
        rw [List.filterMap_append, hreceiving, hrun, hp.receiver]
        exact h.receiver
      · rw [h.closed, hp.closed, List.mem_append, List.mem_singleton, or_assoc, eq_comm (a := a)]
      · rw [hentries, htakings, List.map_append]
        exact hp.flows.trans h.flows
      · rw [h.taken, hp.taken, htakings, List.filter_append, List.map_append, List.append_assoc]

/-! ## What is written -/

/-- The records that the loop has to write: those of its own family. -/
def own (s : Sender) : List Packet := s.taken.filter (·.peer.family = s.endpoint.family)

theorem own_concat {p : Packet} {outbound : Queue Packet} {phase : Phase}
    (hf : p.peer.family = s.endpoint.family) :
    own { s with outbound, taken := s.taken ++ [p], phase } = s.own ++ [p] := by
  have hfilter : [p].filter (·.peer.family = s.endpoint.family) = [p] := by simp [hf]
  exact (List.filter_append ..).trans (congrArg (s.own ++ ·) hfilter)

theorem own_concat_of_ne {p : Packet} {outbound : Queue Packet} {phase : Phase}
    (hf : p.peer.family ≠ s.endpoint.family) :
    own { s with outbound, taken := s.taken ++ [p], phase } = s.own := by
  have hfilter : [p].filter (·.peer.family = s.endpoint.family) = [] := by simp [hf]
  exact (List.filter_append ..).trans ((congrArg (s.own ++ ·) hfilter).trans (List.append_nil _))

inductive Standing (s : Sender) : Phase → Prop
  | waiting (hw : s.written = s.own) : Standing s .waiting
  | sending {p : Packet} (hw : s.written ++ [p] = s.own)
      (hl : s.taken.getLast? = some p) : Standing s (.sending p)
  | drained (hw : s.written = s.own) (hc : s.outbound.closed = true) (hi : s.outbound.items = []) :
      Standing s (.ended (.ok ()))
  | failed {p : Packet} {cause : OsError} (hw : s.written ++ [p] = s.own)
      (hl : s.taken.getLast? = some p) :
      Standing s (.ended (.error (sendFailure s.endpoint p cause)))

/-- What happens at the queue and to the receive loop does not concern what was taken. -/
theorem Standing.of_same {phase : Phase} (h : Standing s phase) (ht : s'.taken = s.taken)
    (hw : s'.written = s.written) (he : s'.endpoint = s.endpoint)
    (hq : s.outbound.closed = true → s.outbound.items = [] → s'.outbound.closed = true ∧
      s'.outbound.items = []) :
    Standing s' phase := by
  have ho : s'.own = s.own := by rw [own, own, ht, he]
  cases h with
  | waiting h => exact .waiting (by rw [hw, ho, h])
  | sending h hl => exact .sending (by rw [hw, ho, h]) (by rw [ht, hl])
  | drained h hc hi => exact .drained (by rw [hw, ho, h]) (hq hc hi).1 (hq hc hi).2
  | failed h hl =>
      rw [← he]
      exact .failed (by rw [hw, ho, h]) (by rw [ht, hl])

structure Sound (s : Sender) : Prop where
  receiver : s.receiver.Sound
  standing : Standing s s.phase

theorem Sound.endpoint_eq (hs : s.Sound) (h : Happens s a s') : s'.endpoint = s.endpoint := by
  cases h with
  | receive hb => exact (hs.receiver.passes (hs.receiver.happens hb)).endpoint
  | push | close | takeElsewhere | take _ _ _ | drop _ _ _ | drained _ _ _ | sent _
  | interrupted _ | failed _ => rfl

theorem Sound.act (hs : s.Sound) (ha : s.act a = some s') : s'.Sound := by
  have h := happens ha
  have he := hs.endpoint_eq h
  cases h with
  | push =>
      refine ⟨hs.receiver, hs.standing.of_same rfl rfl rfl fun hc hi => ?_⟩
      rw [Queue.push_of_closed hc]
      exact ⟨hc, hi⟩
  | close => exact ⟨hs.receiver, hs.standing.of_same rfl rfl rfl fun _ hi => ⟨rfl, hi⟩⟩
  | takeElsewhere =>
      refine ⟨hs.receiver, hs.standing.of_same rfl rfl rfl fun hc hi => ?_⟩
      exact ⟨(Queue.take_closed _).trans hc, Queue.take_items_of_empty hi⟩
  | receive hb => exact ⟨hs.receiver.act hb, hs.standing.of_same rfl rfl he fun hc hi => ⟨hc, hi⟩⟩
  | interrupted _ => exact hs
  | @take p hp _ hf =>
      have hst := hs.standing
      rw [hp] at hst
      cases hst with
      | waiting hw =>
          refine ⟨hs.receiver, .sending ?_ List.getLast?_concat⟩
          rw [own_concat hf, ← hw]
  | drop hp _ hf =>
      have hst := hs.standing
      rw [hp] at hst
      cases hst with
      | waiting hw =>
          refine ⟨hs.receiver, ?_⟩
          rw [hp]
          refine .waiting ?_
          rw [own_concat_of_ne hf]
          exact hw
  | drained hp hi hc =>
      have hst := hs.standing
      rw [hp] at hst
      cases hst with
      | waiting hw => exact ⟨hs.receiver, .drained hw hc hi⟩
  | sent hp =>
      have hst := hs.standing
      rw [hp] at hst
      cases hst with
      | sending hw _ => exact ⟨hs.receiver, .waiting hw⟩
  | failed hp =>
      have hst := hs.standing
      rw [hp] at hst
      cases hst with
      | sending hw hl => exact ⟨hs.receiver, .failed hw hl⟩

theorem sound_fresh (e : Endpoint) (i q : Queue Packet) : (fresh e i q).Sound :=
  ⟨Receiver.sound_fresh e i, .waiting rfl⟩

theorem Sound.run (hs : s.Sound) (hr : s.run acts = some s') :
    s'.Sound ∧ s'.endpoint = s.endpoint := by
  refine Run.invariant (fun t => t.Sound ∧ t.endpoint = s.endpoint) ?_ ⟨hs, rfl⟩ hr
  rintro t a t' ⟨ht, he⟩ ha
  exact ⟨ht.act ha, (ht.endpoint_eq (happens ha)).trans he⟩

/-- An attempt that is interrupted leaves no trace. -/
theorem run_filter (hr : s.run acts = some s') :
    s.run (acts.filter (· ≠ .attempt .interrupted)) = some s' := by
  induction acts generalizing s with
  | nil => exact hr
  | cons a acts ih =>
      obtain ⟨u, ha, hu⟩ := Run.foldlM_cons_eq_some hr
      by_cases hi : a = .attempt .interrupted
      · subst hi
        obtain ⟨⟩ := happens ha
        rw [List.filter_cons_of_neg (by simp)]
        exact ih hu
      · rw [List.filter_cons_of_pos (by simpa using hi), run, List.foldlM_cons, ha]
        exact ih hu

/-! ## The end of the loop -/

def Act.isOwn : Act → Bool
  | .take | .attempt _ => true
  | _ => false

/-- An act by which the loop gets on: all that it does but for an attempt that is interrupted. -/
def Act.isStep : Act → Bool
  | .take | .attempt .sent | .attempt (.failed _) => true
  | _ => false

/-- A loop that has ended does nothing more. -/
theorem rests_happens {outcome : Except Failure Unit} (hp : s.phase = .ended outcome)
    (h : Happens s a s') :
    a.isOwn = false ∧ s'.phase = s.phase ∧ s'.taken = s.taken ∧ s'.written = s.written := by
  cases h with
  | push | close | takeElsewhere | receive _ => exact ⟨rfl, rfl, rfl, rfl⟩
  | take h _ _ | drop h _ _ | drained h _ _ | sent h | interrupted h | failed h =>
      cases hp.symm.trans h

theorem rests_run {outcome : Except Failure Unit} (hp : s.phase = .ended outcome)
    (hr : s.run acts = some s') :
    (∀ a ∈ acts, a.isOwn = false) ∧ s'.phase = s.phase ∧ s'.taken = s.taken ∧
    s'.written = s.written := by
  induction acts generalizing s with
  | nil =>
      obtain rfl := Option.some.inj hr
      exact ⟨nofun, rfl, rfl, rfl⟩
  | cons a acts ih =>
      obtain ⟨u, ha, hu⟩ := Run.foldlM_cons_eq_some hr
      obtain ⟨hown, hpu, htu, hwu⟩ := rests_happens hp (happens ha)
      obtain ⟨hrest, hps, hts, hws⟩ := ih (hpu.trans hp) hu
      exact ⟨List.forall_mem_cons.mpr ⟨hown, hrest⟩, hps.trans hpu, hts.trans htu, hws.trans hwu⟩

/-- How many steps the loop takes at most without a further record. -/
def effort (s : Sender) : Nat :=
  2 * s.outbound.items.length +
    match s.phase with
    | .waiting => 1
    | .sending _ => 2
    | .ended _ => 0

theorem effort_happens (h : Happens s a s') :
    (if a.isStep then 1 else 0) + s'.effort ≤ s.effort + 2 * (s.entering? a).toList.length := by
  cases h with
  | @push p =>
      cases hc : s.outbound.closed with
      | true => simp [effort, Act.isStep, Queue.push_of_closed hc]
      | false =>
          simp only [effort, Act.isStep, entering?, Queue.push_of_open hc, hc, List.length_append,
            List.length_singleton, Bool.false_eq_true, if_false, Option.toList_some]
          omega
  | takeElsewhere =>
      simp only [effort, Act.isStep, Queue.length_take, Bool.false_eq_true, if_false]
      omega
  | take hp ht _ | drop hp ht _ =>
      have hl := (Queue.take_perm ht).length_eq
      rw [List.length_cons] at hl
      simp only [effort, hp, hl, Act.isStep, if_true]
      omega
  | drained hp _ _ | sent hp | failed hp =>
      simp only [effort, hp, failed, Act.isStep, if_true]
      omega
  | close | receive _ | interrupted _ => simp [effort, Act.isStep]

theorem effort_run (hr : s.run acts = some s') :
    acts.countP Act.isStep + s'.effort ≤ s.effort + 2 * (entries s acts).length := by
  induction acts using List.reverseRecOn generalizing s' with
  | nil =>
      obtain rfl := Option.some.inj hr
      exact Nat.le_of_eq (Nat.zero_add _)
  | append_singleton acts a ih =>
      obtain ⟨u, hu, ha⟩ := Run.foldlM_concat_eq_some hr
      have hentries : entries s (acts ++ [a]) = entries s acts ++ (entering? u a).toList :=
        Run.observe_concat entering? hu a
      have hrest := ih hu
      have hone := effort_happens (happens ha)
      rw [hentries, List.length_append, List.countP_append, List.countP_singleton]
      omega

/-- Where nothing holds the loop up, it has ended or waits for a record. -/
theorem quiet (hq : ∀ a : Act, a.isStep = true → s.act a = none) :
    (∃ outcome, s.phase = .ended outcome) ∨
      (s.phase = .waiting ∧ s.outbound.closed = false ∧ s.outbound.items = []) := by
  cases hp : s.phase with
  | ended outcome => exact .inl ⟨outcome, rfl⟩
  | sending p => simpa [act, hp] using hq (.attempt .sent) rfl
  | waiting =>
      have htake := hq .take rfl
      rcases ht : s.outbound.take with ⟨_ | p, outbound⟩
      · simp only [act, hp, ht, ite_eq_right_iff, reduceCtorEq, imp_false, Bool.not_eq_true]
          at htake
        exact .inr ⟨rfl, htake, s.outbound.take_eq_none_iff.mp (congrArg Prod.fst ht)⟩
      · simp [act, hp, ht] at htake

theorem act_of_ended {outcome : Except Failure Unit} (hp : s.phase = .ended outcome)
    (ha : a.isStep = true) :
    s.act a = none := by
  cases hx : s.act a with
  | none => rfl
  | some t =>
      have hown := (rests_happens hp (happens hx)).1
      cases a with
      | take | attempt _ => cases hown
      | push _ | close | takeElsewhere | receive _ => cases ha

/-- Only an attempt that fails lets the loop end with a failure. -/
theorem failed_of_ended {e : Endpoint} {i q : Queue Packet} (hr : (fresh e i q).run acts = some s)
    {f : Failure} (hp : s.phase = .ended (.error f)) :
    ∃ cause, .attempt (.failed cause) ∈ acts := by
  have hstart : ¬ ∃ f, (fresh e i q).phase = .ended (.error f) := by
    rintro ⟨f, hf⟩
    cases hf
  obtain ⟨before, a, after, u, v, rfl, -, hu, ha, ⟨f, hv⟩, -⟩ :=
    Run.exists_step (fun t => ∃ f, t.phase = .ended (.error f)) hstart hr ⟨f, hp⟩
  cases happens ha with
  | @failed _ cause _ => exact ⟨cause, List.mem_append_right _ List.mem_cons_self⟩
  | push | close | takeElsewhere | receive _ | drop _ _ _ | interrupted _ => exact absurd ⟨f, hv⟩ hu
  | take _ _ _ | drained _ _ _ | sent _ => cases hv

/-! ## Runs of a send loop -/

/-- How a run goes on after an attempt to send a record has failed. -/
structure Fails (e : Endpoint) (u : Sender) (p : Packet) (cause : OsError) (after : List Act)
    (s : Sender) : Prop where
  last : u.phase = .sending p ∧ u.taken.getLast? = some p ∧
    u.written ++ [p] = u.taken.filter (·.peer.family = e.family)
  ended : s.phase =
    .ended (.error (.endpoint e.family e.id s!"send to {p.peer} failed: {cause.message}"))
  rests : (∀ a ∈ after, a.isOwn = false) ∧ s.taken = u.taken ∧ s.written = u.written
  left : Queue.Flows u.outbound (entries (u.failed p cause) after)
    ((takings (u.failed p cause) after).map (·.2))
    s.outbound
  closed : s.outbound.closed = true ↔ u.outbound.closed = true ∨ .close ∈ after
  receiver : u.receiver.run (after.filterMap Act.receiving?) = some s.receiver

/-- What a send loop writes: the records of its own family that it took, in this order, each of
them once. -/
structure WritesOwn (e : Endpoint) (i q : Queue Packet) (acts : List Act) (s : Sender) : Prop where
  passed : Passed (fresh e i q) acts s
  endpoint : s.endpoint = e
  standing : Standing s s.phase
  retried : (fresh e i q).run (acts.filter (· ≠ .attempt .interrupted)) = some s
  ended : s.phase = .ended (.ok ()) ↔ (∀ a : Act, a.isStep = true → s.act a = none) ∧
    s.outbound.closed = true ∧
    s.outbound.items = [] ∧ ∀ cause, .attempt (.failed cause) ∉ acts
  fails : ∀ before cause after, acts = before ++ .attempt (.failed cause) :: after →
    ∃ u p, (fresh e i q).run before = some u ∧ Fails e u p cause after s
  steps : acts.countP Act.isStep ≤ 2 * (q.items.length + (entries (fresh e i q) acts).length) + 1
  quiet : (∀ a : Act, a.isStep = true → s.act a = none) → (∃ outcome, s.phase = .ended outcome) ∨
    (s.phase = .waiting ∧ s.outbound.closed = false ∧ s.outbound.items = [])

theorem fails_run {e : Endpoint} {i q : Queue Packet} {before after : List Act} {cause : OsError}
    (hr : (fresh e i q).run (before ++ .attempt (.failed cause) :: after) = some s) :
    ∃ u p, (fresh e i q).run before = some u ∧ Fails e u p cause after s := by
  obtain ⟨u, hu, hrest⟩ := Run.foldlM_append_eq_some hr
  obtain ⟨v, hv, hafter⟩ := Run.foldlM_cons_eq_some hrest
  obtain ⟨hs, he⟩ := (sound_fresh e i q).run hu
  cases happens hv with
  | @failed p _ hp =>
      have hst := hs.standing
      rw [hp] at hst
      obtain ⟨hown, hphase, htaken, hwritten⟩ := rests_run rfl hafter
      have hpassed := passed_run hafter
      refine ⟨u, p, hu, ?_, ?_, ⟨hown, htaken, hwritten⟩, hpassed.flows, hpassed.closed,
        hpassed.receiver⟩
      · cases hst with
        | sending hw hl =>
            rw [own, he] at hw
            exact ⟨hp, hl, hw⟩
      · rw [hphase, failed, he]
        rfl

theorem writes_own_until_failure (e : Endpoint) (i q : Queue Packet) (acts : List Act)
    (hr : (fresh e i q).run acts = some s) : WritesOwn e i q acts s := by
  obtain ⟨hs, he⟩ := (sound_fresh e i q).run hr
  constructor
  · exact passed_run hr
  · exact he
  · exact hs.standing
  · exact run_filter hr
  · constructor
    · intro hp
      have hst := hs.standing
      rw [hp] at hst
      refine ⟨fun a ha => act_of_ended hp ha, ?_⟩
      cases hst with
      | drained _ hc hi =>
          refine ⟨hc, hi, fun cause hm => ?_⟩
          obtain ⟨before, after, rfl⟩ := List.append_of_mem hm
          obtain ⟨u, p, -, hf⟩ := fails_run hr
          cases hp.symm.trans hf.ended
    · rintro ⟨hq, hc, -, hno⟩
      obtain ⟨outcome, hp⟩ | ⟨-, ho, -⟩ := quiet hq
      · cases outcome with
        | ok _ => exact hp
        | error f =>
            obtain ⟨cause, hm⟩ := failed_of_ended hr hp
            exact absurd hm (hno cause)
      · cases hc.symm.trans ho
  · rintro before cause after rfl
    exact fails_run hr
  · have hle := effort_run hr
    have hfresh : (fresh e i q).effort = 2 * q.items.length + 1 := rfl
    omega
  · exact quiet

/-- Records of both families. The first is written at the second attempt, the next is dropped, and
the third cannot be sent, while the receive loop starts; another loop takes the last one. -/
def failedThird : List Act :=
  [.push ⟨.v4 .loopback 500, [1]⟩, .push ⟨.v6 (.ofParts [0xfe80] [1]) 500 0 0, [2]⟩,
    .push ⟨.v4 .loopback 501, [3]⟩, .push ⟨.v4 .loopback 502, [4]⟩, .take, .attempt .interrupted,
    .attempt .sent, .take, .take, .receive .start, .attempt (.failed .messageTooLong),
    .takeElsewhere]

theorem writes_own_until_failure_failedThird :
    ∃ s, (fresh ⟨0, .v4 .loopback 4500, 2⟩ (.new .fifo) (.new .fifo)).run failedThird = some s ∧
      WritesOwn ⟨0, .v4 .loopback 4500, 2⟩ (.new .fifo) (.new .fifo) failedThird s ∧
      s.written = [⟨.v4 .loopback 500, [1]⟩] ∧ s.outbound.items = [] := by
  refine ⟨_, rfl, ?_, rfl, rfl⟩
  exact writes_own_until_failure _ _ _ failedThird rfl

end SessionDispatch.Sender
