import SessionDispatch.Proofs.Endpoint.Sending
import SessionDispatch.Proofs.Pool.Steps
import SessionDispatch.Proofs.Session.Sessions
import SessionDispatch.Proofs.Session.Steps
import SessionDispatch.Proofs.Telemetry.Counters
import SessionDispatch.Timer.Loop

/-!
# What components report

A receive loop reports its start and its end by turns, and everything else in between. Dispatchers
and the expiries of their manager report as many sessions made as there are in the table, expired,
and made without a report so far, unless sessions are removed by hand. What the others report is not
about receive loops and sessions.
-/

namespace SessionDispatch

inductive Metric.Subject
  | receiving
  | sending
  | sessions
  | timer
  | pool
deriving DecidableEq, Repr

namespace Metric

def subject : Metric → Subject
  | packetReceived _ | receiveError | endpointStarted | endpointStopped => .receiving
  | packetSent _ | sendError => .sending
  | sessionCreated | sessionExpired => .sessions
  | timerFired => .timer
  | poolGrew _ => .pool

theorem change_of_subject_ne {e : Metric} (h : e.subject ≠ .receiving) : e.change = 0 := by
  cases e <;> first | rfl | exact absurd rfl h

theorem balance_eq_zero {events : List Metric} (h : ∀ e ∈ events, e.subject ≠ .receiving) :
    balance events = 0 :=
  List.sum_eq_zero fun n hn => by
    obtain ⟨e, he, rfl⟩ := List.mem_map.mp hn
    exact change_of_subject_ne (h e he)

end Metric

namespace Counter

theorem total_append (c : Counter) (a b : List Metric) :
    c.total (a ++ b) = c.total a + c.total b := by
  rw [total, List.map_append, List.sum_append]
  rfl

theorem total_singleton (c : Counter) (e : Metric) : c.total [e] = c.weight e := List.sum_singleton

theorem total_eq_zero {c : Counter} {events : List Metric} (h : ∀ e ∈ events, c.weight e = 0) :
    c.total events = 0 :=
  List.sum_eq_zero fun n hn => by
    obtain ⟨e, he, rfl⟩ := List.mem_map.mp hn
    exact h e he

end Counter

/-! ## Receive loops -/

namespace Receiver

open SessionDispatch.Metric

variable {r r' : Receiver} {a : Act} {acts : List Act} {events : List Metric} {running last : Bool}

/-- Whether a loop runs after a report; none if it cannot report this. -/
def follow (running : Bool) : Metric → Option Bool
  | .endpointStarted => if running then none else some true
  | .endpointStopped => if running then some false else none
  | .packetReceived _ | .receiveError => if running then some true else none
  | _ => none

theorem follow_concat (h : events.foldlM follow false = some running) (e : Metric) :
    (events ++ [e]).foldlM follow false = follow running e := by
  rw [Run.foldlM_concat, h]
  rfl

theorem isRunning_of_phase
    (hp : r.phase = .polling ∨ r.phase = .stopping ∨ ∃ left, r.phase = .reading left) :
    r.isRunning = true := by
  unfold isRunning
  obtain hp | hp | ⟨left, hp⟩ := hp <;> rw [hp]

theorem isRunning_resume (r : Receiver) (left : Nat) : (r.resume left).isRunning = true := by
  cases left <;> rfl

theorem follow_finish (h : r.metrics.foldlM follow false = some true)
    (outcome : Except Failure Unit) :
    (r.finish outcome).metrics.foldlM follow false = some (r.finish outcome).isRunning :=
      follow_concat h _

theorem follow_reads {left : Nat} {outcome : Outcome}
    (h : r.metrics.foldlM follow false = some true) (hr : Reads r left outcome r') :
    r'.metrics.foldlM follow false = some r'.isRunning := by
  cases hr with
  | datagram _ =>
      rw [isRunning_resume]
      exact follow_concat h _
  | wouldBlock | interrupted | unaddressed =>
      rw [isRunning_resume]
      exact h
  | undelivered =>
      rw [isRunning_resume]
      exact follow_concat h _
  | failed => exact follow_finish (follow_concat h _) _

theorem follow_happens (h : r.metrics.foldlM follow false = some r.isRunning)
    (ha : Happens r a r') :
    r'.metrics.foldlM follow false = some r'.isRunning := by
  cases ha with
  | arrive | stop | closeQueue | takeQueued | queueElsewhere | stir _ => exact h
  | start hp =>
      rw [hp] at h
      exact follow_concat h _
  | reportSocket hp | reportStop hp =>
      rw [isRunning_of_phase (.inl hp)] at h
      exact h
  | reportBroken hp | pollFailed hp =>
      rw [isRunning_of_phase (.inl hp)] at h
      exact follow_finish h _
  | read hp hr =>
      rw [isRunning_of_phase (.inr (.inr ⟨_, hp⟩))] at h
      exact follow_reads h hr
  | readStop hp _ =>
      rw [isRunning_of_phase (.inr (.inl hp))] at h
      exact follow_finish h (.ok ())

/-- The reports of a loop tell whether it runs. -/
theorem follow_run {e : Endpoint} {q : Queue Packet} (hr : (fresh e q).run acts = some r) :
    r.metrics.foldlM follow false = some r.isRunning := by
  refine (Run.invariant
    (fun r => r.Sound ∧ r.metrics.foldlM follow false = some r.isRunning) ?_ ?_ hr).2
  · intro r a r' hs ha
    exact ⟨hs.1.act ha, follow_happens hs.2 (hs.1.happens ha)⟩
  · exact ⟨sound_fresh e q, rfl⟩

theorem subject_of_follow (h : events.foldlM follow running = some last) :
    ∀ e ∈ events, e.subject = .receiving := by
  induction events generalizing running with
  | nil => exact fun _ he => absurd he List.not_mem_nil
  | cons e events ih =>
      obtain ⟨b, hb, h⟩ := Run.foldlM_cons_eq_some h
      refine List.forall_mem_cons.mpr ⟨?_, ih h⟩
      cases e <;> first | rfl | cases hb

theorem balance_of_follow (h : events.foldlM follow false = some running) :
    balance events = if running then 1 else 0 := by
  induction events using List.reverseRecOn generalizing running with
  | nil =>
      obtain rfl := Option.some.inj h
      rfl
  | append_singleton events e ih =>
      obtain ⟨b, hb, he⟩ := Run.foldlM_concat_eq_some h
      rw [balance_append, balance_singleton, ih hb]
      cases b <;> cases e <;> cases he <;> rfl

/-- Of what a loop has reported up to some moment, the starts are as many as the ends, or
one more. -/
theorem balance_of_isPrefix (h : events.foldlM follow false = some running) {before : List Metric}
    (hb : before <+: events) : 0 ≤ balance before ∧ balance before ≤ 1 := by
  obtain ⟨after, rfl⟩ := hb
  obtain ⟨b, hb, -⟩ := Run.foldlM_append_eq_some h
  rw [balance_of_follow hb]
  cases b <;> decide

end Receiver

/-! ## Send loops, timers and pools -/

theorem Sender.subject_run {e : Endpoint} {i q : Queue Packet} {acts : List Sender.Act} {s : Sender}
    (hr : (Sender.fresh e i q).run acts = some s) : ∀ m ∈ s.metrics, m.subject = .sending := by
  refine Run.invariant (fun s : Sender => ∀ m ∈ s.metrics, m.subject = .sending) ?_
    (fun _ hm => absurd hm List.not_mem_nil) hr
  intro s a s' hs ha
  cases happens ha with
  | sent _ | failed _ => exact List.forall_mem_append.mpr ⟨hs, List.forall_mem_singleton.mpr rfl⟩
  | _ => exact hs

namespace Timer.Loop

variable {α : Type}

def handingOut? (l : Loop α) : Act α → Option (List (Event α))
  | .dispatched =>
    match l.phase with
    | .dispatching due => some due
    | _ => none
  | _ => none

/-- What a loop reports in a run: each event that it hands out. -/
def reports (l : Loop α) (acts : List (Act α)) : List Metric :=
  (Run.observe act handingOut? l acts).flatten.map fun _ => .timerFired

theorem subject_reports (l : Loop α) (acts : List (Act α)) :
    ∀ m ∈ l.reports acts, m.subject = .timer := by
  intro m hm
  obtain ⟨e, -, rfl⟩ := List.mem_map.mp hm
  rfl

end Timer.Loop

theorem Pool.metrics_act {α : Type} {p p' : Pool α} {a : Pool.Act α} (ha : p.act a = some p') :
    p'.metrics = p.metrics ∨ ∃ workers, p'.metrics = p.metrics ++ [.poolGrew workers] := by
  cases a with
  | submit =>
      obtain rfl := Option.some.inj ha
      unfold submit
      split_ifs <;> exact .inl rfl
  | notify woken =>
      obtain ⟨-, ⟨w, -, rfl⟩ | ⟨-, rfl⟩⟩ := act_notify ha
      all_goals exact .inl rfl
  | grow =>
      obtain ⟨-, -, rfl⟩ := act_grow ha
      exact .inl rfl
  | spawn started =>
      obtain ⟨-, rfl⟩ := act_spawn ha
      cases started with
      | false => exact .inl rfl
      | true => exact .inr ⟨p.handles.length + 1, rfl⟩
  | start worker =>
      obtain ⟨task, rest, -, -, rfl⟩ := act_start ha
      exact .inl rfl
  | sleep worker =>
      obtain ⟨-, -, -, rfl⟩ := act_sleep ha
      exact .inl rfl
  | finish worker outcome =>
      obtain ⟨task, -, rfl⟩ := act_finish ha
      exact .inl rfl
  | close worker =>
      obtain ⟨task, -, rfl⟩ := act_close ha
      exact .inl rfl
  | release worker =>
      obtain ⟨task, -, rfl⟩ := act_release ha
      exact .inl rfl
  | exit worker =>
      obtain ⟨-, -, -, rfl⟩ := act_exit ha
      exact .inl rfl
  | stop =>
      obtain rfl := Option.some.inj ha
      exact .inl rfl
  | rouse =>
      obtain ⟨-, rfl⟩ := act_rouse ha
      exact .inl rfl
  | takeHandles =>
      obtain ⟨-, -, rfl⟩ := act_takeHandles ha
      exact .inl rfl
  | take task =>
      obtain rfl := Option.some.inj ha
      unfold Pool.take
      split <;> exact .inl rfl

theorem Pool.subject_run {α : Type} {threads threshold : Nat} {acts : List (Pool.Act α)}
    {p : Pool α} (hr : (Pool.new threads threshold).run acts = some p) :
    ∀ m ∈ p.metrics, m.subject = .pool := by
  refine Run.invariant (fun p : Pool α => ∀ m ∈ p.metrics, m.subject = .pool) ?_
    (fun _ hm => absurd hm List.not_mem_nil) hr
  intro p a p' hp ha
  obtain h | ⟨workers, h⟩ := metrics_act ha <;> rw [h]
  · exact hp
  · exact List.forall_mem_append.mpr ⟨hp, List.forall_mem_singleton.mpr rfl⟩

/-! ## Sessions -/

namespace Table

variable {κ ρ : Type} [DecidableEq κ] {t : Table κ ρ} {k : κ}

theorem size_insert (h : t.find? k = none) (r : ρ) : (t.insert k r).size = t.size + 1 := by
  have hall : t.entries.filter (·.1 ≠ k) = t.entries := by
    refine List.filter_eq_self.mpr fun e he => decide_eq_true ?_
    exact (bne_iff_ne.mp (List.lookup_eq_none_iff.mp h e he)).symm
  change (t.entries.filter (·.1 ≠ k) ++ [(k, r)]).length = t.entries.length + 1
  rw [hall, List.length_append, List.length_singleton]

theorem size_erase {r : ρ} (h : t.find? k = some r) : (t.erase k).size + 1 = t.size := by
  obtain ⟨before, after, hsplit, -⟩ := List.lookup_eq_some_iff.mp h
  have hone : (t.entries.map Prod.fst).count k = 1 := by
    refine List.count_eq_one_of_mem t.nodup ?_
    rw [hsplit, List.map_append]
    exact List.mem_append_right _ List.mem_cons_self
  have hcount : t.entries.countP (·.1 = k) = 1 := by
    rw [← hone, List.count, List.countP_map]
    exact List.countP_congr fun e _ => by simp
  have hlen := List.length_eq_countP_add_countP (fun e : κ × ρ => decide (e.1 = k)) (l := t.entries)
  rw [hcount, List.countP_eq_length_filter] at hlen
  simp only [size, erase]
  simp only [decide_eq_true_eq, ne_eq] at hlen ⊢
  omega

end Table

namespace Dispatchers

open SessionManager

variable {h : Handler} {s s' : Dispatchers} {a : Act} {acts : List Act} {d : Nat} {old new : Stage}

/-- Whether a dispatcher has made a session and not reported it. -/
def Stage.owes : Stage → Bool
  | .routed _ _ created => created
  | _ => false

def unreported (s : Dispatchers) : Nat := s.stages.countP Stage.owes

def live (s : Dispatchers) : Nat := s.manager.table.size

def Act.isRemoval : Act → Bool
  | .remove _ | .clear => true
  | _ => false

/-- What an act does to the sessions, and what is reported of it. -/
inductive Tells (s : Dispatchers) (a : Act) (s' : Dispatchers) : Prop
  | nothing (hm : s'.metrics = s.metrics) (hl : s'.live = s.live)
      (hu : s'.unreported = s.unreported)
  | makes (hm : s'.metrics = s.metrics) (hl : s'.live = s.live + 1)
      (hu : s'.unreported = s.unreported + 1)
  | created (hm : s'.metrics = s.metrics ++ [.sessionCreated]) (hl : s'.live = s.live)
      (hu : s'.unreported + 1 = s.unreported)
  | expired (hm : s'.metrics = s.metrics ++ [.sessionExpired]) (hl : s'.live + 1 = s.live)
      (hu : s'.unreported = s.unreported)
  | fired (n : Nat) (hm : s'.metrics = s.metrics ++ List.replicate n .timerFired)
      (hl : s'.live = s.live)
      (hu : s'.unreported = s.unreported)
  | removes (ha : a.isRemoval = true) (hm : s'.metrics = s.metrics)

theorem unreported_set (hd : s.stages[d]? = some old) (new : Stage) :
    (s.stages.set d new).countP Stage.owes + old.owes.toNat = s.unreported + new.owes.toNat := by
  obtain ⟨hlt, rfl⟩ := List.getElem?_eq_some_iff.mp hd
  have hle := List.boole_getElem_le_countP (p := Stage.owes) hlt
  rw [unreported, List.countP_set hlt]
  cases hold : s.stages[d].owes <;> cases new.owes <;>
    simp only [hold, if_true, if_false, Bool.false_eq_true, Bool.toNat_true, Bool.toNat_false]
      at hle ⊢ <;> omega

/-- A dispatcher goes on that neither makes a session nor reports one. -/
theorem Tells.of_stage (hst : s'.stages = s.stages.set d new) (hd : s.stages[d]? = some old)
    (ho : old.owes = new.owes) (hm : s'.metrics = s.metrics) (hl : s'.live = s.live) :
    Tells s a s' := by
  have hset := unreported_set hd new
  rw [ho] at hset
  refine .nothing hm hl ?_
  rw [unreported, hst]
  exact Nat.add_right_cancel hset

theorem tells_route (ha : act h s (.route d) = some s') : Tells s (.route d) s' := by
  obtain ⟨p, hd, rfl⟩ := act_route ha
  cases hf : s.manager.table.find? p.key with
  | some id =>
      rw [route_of_some hf]
      exact .of_stage rfl hd rfl rfl rfl
  | none =>
      rw [route_of_none hf]
      exact .makes rfl (Table.size_insert hf _) (unreported_set hd _)

theorem tells_decide (ha : act h s (.decide d) = some s') : Tells s (.decide d) s' := by
  obtain ⟨p, id, created, hd, rfl⟩ := act_decide ha
  have hnew : (if s.manager.mustArm created then Stage.arming p id created
        else .ready p id created).owes = false := by
    split_ifs <;> rfl
  cases created with
  | false => exact .of_stage rfl hd hnew.symm rfl rfl
  | true =>
      have hset :=
        unreported_set hd (if s.manager.mustArm true then .arming p id true else .ready p id true)
      rw [hnew] at hset
      exact .created rfl rfl hset

theorem table_renew (m : SessionManager) (timer : Timer Expiry) (now : Instant) (id : Nat) :
    (m.renew timer now id).2.1.table = m.table := by
  cases hx : m.sessions[id]? with
  | none => rw [renew_of_none hx]
  | some x =>
      rw [renew_of_some hx]
      rfl

/-- An expiry that comes to nothing is not reported. -/
theorem size_expire (m : SessionManager) (e : Expiry) :
    ((m.expire e).1.table.size = m.table.size ∧ (m.expire e).2 = []) ∨
      ((m.expire e).1.table.size + 1 = m.table.size ∧ (m.expire e).2 = [.sessionExpired]) := by
  unfold expire
  split
  · exact .inl ⟨rfl, rfl⟩
  · rename_i x _
    split_ifs with hg
    · unfold Table.eraseIfSame
      split_ifs with hf
      · exact .inr ⟨Table.size_erase hf, rfl⟩
      · exact .inl ⟨rfl, rfl⟩
    · exact .inl ⟨rfl, rfl⟩

theorem tells_act (ha : act h s a = some s') : Tells s a s' := by
  cases a with
  | route d => exact tells_route ha
  | decide d => exact tells_decide ha
  | arm d =>
      obtain ⟨p, id, created, hd, -, rfl⟩ := act_arm ha
      exact .of_stage rfl hd rfl rfl (congrArg Table.size (table_renew ..))
  | leave d =>
      obtain ⟨p, id, created, hd, rfl⟩ := act_leave ha
      rw [process_snd]
      exact .of_stage rfl hd rfl rfl rfl
  | take d =>
      obtain ⟨hd, ⟨p, -, rfl⟩ | ⟨-, -, rfl⟩⟩ := act_take ha
      all_goals exact .of_stage rfl hd rfl rfl rfl
  | disarm d =>
      obtain ⟨p, id, created, previous, hd, rfl⟩ := act_disarm ha
      exact .of_stage rfl hd rfl rfl rfl
  | enter d =>
      obtain ⟨p, id, created, x, hd, -, -, rfl⟩ := act_enter ha
      exact .of_stage rfl hd rfl rfl rfl
  | reply d =>
      obtain ⟨id, ⟨hd, rfl⟩ | ⟨p, rest, hd, rfl⟩⟩ := act_reply ha
      all_goals exact .of_stage rfl hd rfl rfl rfl
  | pass =>
      obtain ⟨-, rfl⟩ := act_pass ha
      exact .fired _ (congrArg (s.metrics ++ ·) List.map_const') rfl rfl
  | expire i =>
      obtain ⟨e, -, -, rfl⟩ := act_expire ha
      obtain ⟨hl, hm⟩ | ⟨hl, hm⟩ := size_expire s.manager e
      · refine .nothing ?_ hl rfl
        rw [hm, List.append_nil]
      · exact .expired (congrArg (s.metrics ++ ·) hm) hl rfl
  | arrive p =>
      obtain ⟨-, rfl⟩ | ⟨-, rfl⟩ := act_arrive ha
      all_goals exact .nothing rfl rfl rfl
  | giveUp i =>
      obtain ⟨-, rfl⟩ := act_giveUp ha
      exact .nothing rfl rfl rfl
  | remove _ | clear =>
      obtain rfl := Option.some.inj ha
      exact .removes rfl rfl
  | closeInbound | closeOutbound | send | setPolicy _ | tick _ | closePool | stopTimer =>
      obtain rfl := Option.some.inj ha
      exact .nothing rfl rfl rfl

/-- The sessions that were made are in the table, or expired. -/
def Reconciled (s : Dispatchers) : Prop :=
  Counter.sessionsCreated.total s.metrics + s.unreported =
    s.live + Counter.sessionsExpired.total s.metrics

theorem Reconciled.act (hs : s.Reconciled) (hno : a.isRemoval = false)
    (ha : Dispatchers.act h s a = some s') :
    s'.Reconciled := by
  unfold Reconciled at *
  cases tells_act ha with
  | nothing hm hl hu => rw [hm, hl, hu, hs]
  | makes hm hl hu =>
      rw [hm, hl, hu]
      omega
  | created hm hl hu | expired hm hl hu =>
      rw [hm]
      simp only [Counter.total_append, Counter.total_singleton, Counter.weight]
      omega
  | fired n hm hl hu =>
      have hzero : ∀ c : Counter, c.weight .timerFired = 0 →
          c.total (List.replicate n .timerFired) = 0 :=
        fun c hc => Counter.total_eq_zero fun e he => (List.eq_of_mem_replicate he).symm ▸ hc
      rw [hm, hl, hu, Counter.total_append, Counter.total_append, hzero _ rfl, hzero _ rfl]
      exact hs
  | removes ha _ => exact absurd (hno.symm.trans ha) Bool.false_ne_true

variable {family : Family} {order : Discipline} {policy : ExpiryPolicy} {now : Instant}
variable {count : Nat}

theorem reconciled_run (hno : ∀ a ∈ acts, a.isRemoval = false)
    (hr : run h (start (.new family order policy) now count) acts = some s) : s.Reconciled := by
  refine Run.invariant_of_forall Reconciled (fun _ _ _ hno hs ha => hs.act hno ha) hno ?_ hr
  have hnone : (List.replicate count Stage.idle).countP Stage.owes = 0 := by
    rw [List.countP_eq_zero]
    intro stage hst
    rw [List.eq_of_mem_replicate hst]
    exact Bool.false_ne_true
  exact congrArg (0 + ·) hnone

/-- Dispatchers report what becomes of sessions, and the timer that it has handed out expiries. -/
theorem subject_run (hr : run h (start (.new family order policy) now count) acts = some s) :
    ∀ m ∈ s.metrics, m.subject = .sessions ∨ m.subject = .timer := by
  refine Run.invariant
    (fun s : Dispatchers => ∀ m ∈ s.metrics, m.subject = .sessions ∨ m.subject = .timer) ?_
    (fun _ hm => absurd hm List.not_mem_nil) hr
  intro s a s' hs ha
  cases tells_act ha with
  | nothing hm _ _ | makes hm _ _ | removes _ hm => exact hm.symm ▸ hs
  | created hm _ _ | expired hm _ _ =>
      rw [hm]
      exact List.forall_mem_append.mpr ⟨hs, List.forall_mem_singleton.mpr (.inl rfl)⟩
  | fired n hm _ _ =>
      rw [hm]
      exact List.forall_mem_append.mpr ⟨hs, fun m hm => .inr (List.eq_of_mem_replicate hm ▸ rfl)⟩

end Dispatchers

end SessionDispatch
