import SessionDispatch.Proofs.Telemetry.Reports
import SessionDispatch.Telemetry.Collector

/-!
# The gauges tell what is there

Components put what they report into one channel, each in its own order, and the collector takes the
reports out a few at a time. However the reports of different components mix, each counter is the
sum of all that was added to it, the gauge of endpoints tells the receive loops that run, and the
difference of sessions made and expired tells the sessions in the tables.
-/

namespace SessionDispatch

open SessionDispatch.Metric

/-! ## Components -/

/-- A component in a state that it can reach. The dispatchers of a manager are one component here,
with the expiries of its sessions. -/
inductive Source : Type 1
  | receiveLoop (endpoint : Endpoint) (inbound : Queue Packet) (acts : List Receiver.Act)
      (r : Receiver)
      (hr : (Receiver.fresh endpoint inbound).run acts = some r)
  | sendLoop (endpoint : Endpoint) (inbound outbound : Queue Packet) (acts : List Sender.Act)
      (s : Sender)
      (hr : (Sender.fresh endpoint inbound outbound).run acts = some s)
  | dispatchers (h : Handler) (family : Family) (order : Discipline) (policy : ExpiryPolicy)
      (now : Instant)
      (count : Nat) (acts : List Dispatchers.Act) (d : Dispatchers)
      (hr : Dispatchers.run h (.start (.new family order policy) now count) acts = some d)
  | timer {α : Type} (now : Instant) (acts : List (Timer.Loop.Act α)) (l : Timer.Loop α)
      (hr : (Timer.Loop.start now).run acts = some l)
  | pool {α : Type} (threads threshold : Nat) (acts : List (Pool.Act α)) (p : Pool α)
      (hr : (Pool.new threads threshold).run acts = some p)

namespace Source

def metrics : Source → List Metric
  | receiveLoop _ _ _ r _ => r.metrics
  | sendLoop _ _ _ _ s _ => s.metrics
  | dispatchers _ _ _ _ _ _ _ d _ => d.metrics
  | timer now acts _ _ => (Timer.Loop.start now).reports acts
  | pool _ _ _ p _ => p.metrics

/-- How a component's reports come into the channel. Those of several dispatchers and expiries come
in any order. -/
def Emits (x : Source) (events : List Metric) : Prop :=
  match x with
  | dispatchers _ _ _ _ _ _ _ d _ => events.Perm d.metrics
  | x => events = x.metrics

def isReceiveLoop : Source → Bool
  | receiveLoop .. => true
  | _ => false

def isReceiving : Source → Bool
  | receiveLoop _ _ _ r _ => r.isRunning
  | _ => false

def live : Source → Nat
  | dispatchers _ _ _ _ _ _ _ d _ => d.live
  | _ => 0

/-- No session was removed by hand, and of every session made the report is out. -/
def IsSettled : Source → Prop
  | dispatchers _ _ _ _ _ _ acts d _ => (∀ a ∈ acts, a.isRemoval = false) ∧ d.unreported = 0
  | _ => True

variable {x : Source} {events : List Metric}

theorem Emits.perm (h : x.Emits events) : events.Perm x.metrics := by
  cases x with
  | dispatchers => exact h
  | _ => exact .of_eq h

/-- A component that is no receive loop says nothing about receive loops. -/
theorem subject_ne (h : x.isReceiveLoop = false) : ∀ e ∈ x.metrics, e.subject ≠ .receiving := by
  intro e he
  cases x with
  | receiveLoop => cases h
  | sendLoop _ _ _ _ _ hr =>
      exact fun hs => Subject.noConfusion ((Sender.subject_run hr e he).symm.trans hs)
  | dispatchers _ _ _ _ _ _ _ _ hr =>
      cases Dispatchers.subject_run hr e he with
      | inl hsub => exact fun hs => Subject.noConfusion (hsub.symm.trans hs)
      | inr hsub => exact fun hs => Subject.noConfusion (hsub.symm.trans hs)
  | timer =>
      exact fun hs => Subject.noConfusion ((Timer.Loop.subject_reports _ _ e he).symm.trans hs)
  | pool _ _ _ _ hr =>
      exact fun hs => Subject.noConfusion ((Pool.subject_run hr e he).symm.trans hs)

/-- Of what a component has put into the channel up to some moment, the starts are not fewer than
the ends. -/
theorem Emits.balance_of_isPrefix (h : x.Emits events) {before : List Metric}
    (hb : before <+: events) :
    0 ≤ balance before ∧ balance before ≤ x.isReceiveLoop.toNat := by
  cases hx : x.isReceiveLoop with
  | false =>
      have hzero : balance before = 0 := balance_eq_zero fun e he =>
        subject_ne hx e (h.perm.mem_iff.mp (hb.subset he))
      exact ⟨hzero.ge, hzero.le⟩
  | true =>
      cases x with
      | receiveLoop _ _ _ r hr =>
          obtain rfl : events = r.metrics := h
          exact Receiver.balance_of_isPrefix (Receiver.follow_run hr) hb
      | _ => cases hx

theorem balance_metrics (x : Source) : balance x.metrics = x.isReceiving.toNat := by
  cases hx : x.isReceiveLoop with
  | false =>
      rw [balance_eq_zero (subject_ne hx)]
      cases x with
      | receiveLoop => cases hx
      | _ => rfl
  | true =>
      cases x with
      | receiveLoop _ _ _ r hr =>
          refine (Receiver.balance_of_follow (Receiver.follow_run hr)).trans ?_
          cases hrun : r.isRunning <;> simp [isReceiving, hrun]
      | _ => cases hx

/-- Sessions that were made are in a table, or expired. -/
theorem total_sessions (h : x.IsSettled) :
    Counter.sessionsCreated.total x.metrics = x.live + Counter.sessionsExpired.total x.metrics := by
  have hzero : (∀ e ∈ x.metrics, e.subject ≠ .sessions) → x.live = 0 →
      Counter.sessionsCreated.total x.metrics =
        x.live + Counter.sessionsExpired.total x.metrics := by
    intro hne hlive
    rw [hlive, Counter.total_eq_zero fun e he => ?_, Counter.total_eq_zero fun e he => ?_]
    all_goals cases e <;> first | rfl | exact absurd rfl (hne _ he)
  cases x with
  | dispatchers _ _ _ _ _ _ _ d hr =>
      have hd := Dispatchers.reconciled_run h.1 hr
      rw [Dispatchers.Reconciled, h.2, Nat.add_zero] at hd
      exact hd
  | receiveLoop _ _ _ _ hr =>
      refine hzero (fun e he hs => ?_) rfl
      cases (Receiver.subject_of_follow (Receiver.follow_run hr) e he).symm.trans hs
  | sendLoop _ _ _ _ _ hr =>
      exact hzero (fun e he hs => nomatch (Sender.subject_run hr e he).symm.trans hs) rfl
  | timer =>
      exact hzero (fun e he hs => nomatch (Timer.Loop.subject_reports _ _ e he).symm.trans hs) rfl
  | pool _ _ _ _ hr =>
      exact hzero (fun e he hs => nomatch (Pool.subject_run hr e he).symm.trans hs) rfl

end Source

def Counter.overall (c : Counter) (sources : List Source) : Nat :=
  (sources.map fun x => c.total x.metrics).sum

theorem Counter.overall_sessions {sources : List Source} (h : ∀ x ∈ sources, x.IsSettled) :
    Counter.sessionsCreated.overall sources =
      (sources.map Source.live).sum + Counter.sessionsExpired.overall sources := by
  rw [overall, List.map_congr_left fun x hx => Source.total_sessions (h x hx), List.sum_map_add]
  rfl

/-! ## The channel -/

/-- What one component has put into the channel, where every report stands with the number of
its component. -/
def ownReports (i : Nat) (stream : List (Nat × Metric)) : List Metric :=
  (stream.filter (·.1 = i)).map Prod.snd

/-- A channel that has got what components have reported, those of each component in its order. -/
structure Carries (sources : List Source) (stream : List (Nat × Metric)) : Prop where
  known : ∀ e ∈ stream, e.1 < sources.length
  own : ∀ (i : Nat) (x : Source), sources[i]? = some x → x.Emits (ownReports i stream)

theorem ownReports_cons (i : Nat) (e : Nat × Metric) (stream : List (Nat × Metric)) :
    ownReports i (e :: stream) = if e.1 = i then e.2 :: ownReports i stream
      else ownReports i stream := by
  unfold ownReports
  by_cases h : e.1 = i <;> simp [h]

/-- What is summed over a channel is summed over each component, and then over all. -/
theorem sum_ownReports {M : Type} [AddCommMonoid M] (f : Metric → M) (n : Nat)
    {stream : List (Nat × Metric)} (hn : ∀ e ∈ stream, e.1 < n) :
    ((stream.map Prod.snd).map f).sum = ∑ i : Fin n, ((ownReports i stream).map f).sum := by
  induction stream with
  | nil => exact (Finset.sum_const_zero).symm
  | cons e stream ih =>
      obtain ⟨he, hrest⟩ := List.forall_mem_cons.mp hn
      have hstep : ∀ i : Fin n, ((ownReports i (e :: stream)).map f).sum =
          (if ⟨e.1, he⟩ = i then f e.2 else 0) + ((ownReports i stream).map f).sum := by
        intro i
        rw [ownReports_cons]
        by_cases h : e.1 = i
        · rw [if_pos h, if_pos (Fin.ext h), List.map_cons, List.sum_cons]
        · rw [if_neg h, if_neg fun h' => h (congrArg Fin.val h'), zero_add]
      rw [Finset.sum_congr rfl fun i _ => hstep i, Finset.sum_add_distrib, Finset.sum_ite_eq,
        ← ih hrest]
      simp

theorem ownReports_isPrefix {before stream : List (Nat × Metric)} (h : before <+: stream)
    (i : Nat) :
    ownReports i before <+: ownReports i stream := (h.filter _).map _

theorem sum_toNat (l : List Source) (f : Source → Bool) :
    (l.map fun x => ((f x).toNat : Int)).sum = l.countP f := by
  induction l with
  | nil => rfl
  | cons x l ih =>
      rw [List.map_cons, List.sum_cons, ih, List.countP_cons]
      cases f x <;> simp [add_comm]

namespace Carries

variable {sources : List Source} {stream before : List (Nat × Metric)}

theorem sum_eq (h : Carries sources stream) {M : Type} [AddCommMonoid M] (f : Metric → M) :
    ((stream.map Prod.snd).map f).sum = (sources.map fun x => (x.metrics.map f).sum).sum := by
  rw [sum_ownReports f sources.length h.known, ← Fin.sum_univ_fun_getElem]
  refine Finset.sum_congr rfl fun i _ => ?_
  exact ((h.own i _ (List.getElem?_eq_getElem i.isLt)).perm.map f).sum_eq

theorem mem_iff (h : Carries sources stream) (e : Metric) :
    e ∈ stream.map Prod.snd ↔ ∃ x ∈ sources, e ∈ x.metrics := by
  constructor
  · intro he
    obtain ⟨⟨i, e⟩, hmem, rfl⟩ := List.mem_map.mp he
    have hi := h.known _ hmem
    refine ⟨sources[i], List.getElem_mem hi,
      (h.own i _ (List.getElem?_eq_getElem hi)).perm.mem_iff.mp ?_⟩
    exact List.mem_map.mpr ⟨_, List.mem_filter.mpr ⟨hmem, decide_eq_true rfl⟩, rfl⟩
  · rintro ⟨x, hx, he⟩
    obtain ⟨i, hi⟩ := List.mem_iff_getElem?.mp hx
    obtain ⟨e, hmem, rfl⟩ := List.mem_map.mp ((h.own i x hi).perm.mem_iff.mpr he)
    exact List.mem_map_of_mem (List.mem_of_mem_filter hmem)

/-- At every moment the starts in the channel are not fewer than the ends, and as many more as there
are loops at the most. -/
theorem balance_of_isPrefix (h : Carries sources stream) (hb : before <+: stream) :
    0 ≤ balance (before.map Prod.snd) ∧
      balance (before.map Prod.snd) ≤ sources.countP Source.isReceiveLoop := by
  have hown : ∀ i : Fin sources.length, 0 ≤ balance (ownReports i before) ∧
      balance (ownReports i before) ≤ sources[i].isReceiveLoop.toNat := fun i =>
    (h.own i _ (List.getElem?_eq_getElem i.isLt)).balance_of_isPrefix (ownReports_isPrefix hb i)
  rw [balance, sum_ownReports change sources.length fun e he => h.known e (hb.subset he),
    ← sum_toNat, ← Fin.sum_univ_fun_getElem]
  exact ⟨Finset.sum_nonneg fun i _ => (hown i).1, Finset.sum_le_sum fun i _ => (hown i).2⟩

/-- At every moment the gauge tells how many loops have started and not ended. -/
theorem activeEndpoints_drain (h : Carries sources stream)
    (hloops : sources.countP Source.isReceiveLoop < 2 ^ 64) {events : List Metric}
    (he : events <+: stream.map Prod.snd) :
    ((Snapshot.drain {} events).activeEndpoints.toNat : Int) = balance events := by
  have hrange : ∀ earlier, earlier <+: events → 0 ≤ balance earlier ∧ balance earlier < 2 ^ 64 := by
    intro earlier hearlier
    obtain ⟨later, hsplit⟩ := hearlier.trans he
    obtain ⟨before, after, rfl, rfl, -⟩ := List.map_eq_append_iff.mp hsplit.symm
    have hbalance := h.balance_of_isPrefix (List.prefix_append before after)
    exact ⟨hbalance.1, by omega⟩
  exact Snapshot.activeEndpoints_drain (fun b hb => (hrange b hb).1) fun b hb => (hrange b hb).2

/-- In the end there are as many starts more as there are loops that run. -/
theorem balance_eq (h : Carries sources stream) :
    balance (stream.map Prod.snd) = sources.countP Source.isReceiving := by
  rw [balance, h.sum_eq, ← sum_toNat]
  exact congrArg List.sum (List.map_congr_left fun x _ => Source.balance_metrics x)

theorem toNat_read_drain (h : Carries sources stream) (c : Counter) :
    (c.read (Snapshot.drain {} (stream.map Prod.snd))).toNat = c.overall sources % 2 ^ 64 := by
  rw [Counter.toNat_read_drain, Counter.total, h.sum_eq]
  rfl

theorem toNat_sessionsActive (h : Carries sources stream) :
    (Snapshot.drain {} (stream.map Prod.snd)).sessionsActive.toNat =
      Counter.sessionsCreated.overall sources % 2 ^ 64 -
        Counter.sessionsExpired.overall sources % 2 ^ 64 := by
  rw [Snapshot.toNat_sessionsActive]
  exact congrArg₂ (· - ·) (h.toNat_read_drain .sessionsCreated)
    (h.toNat_read_drain .sessionsExpired)

end Carries

/-! ## The collector -/

theorem Collector.record_flatten {c : Collector} (hc : c.collecting = true)
    (drains : List (List Metric)) :
    drains.foldl Collector.record c = { c with snapshot := c.snapshot.drain drains.flatten } := by
  induction drains generalizing c with
  | nil => rfl
  | cons events drains ih =>
      have hstep : c.record events = { c with snapshot := c.snapshot.drain events } := if_pos hc
      rw [List.foldl_cons, List.flatten_cons, Snapshot.drain_append, hstep]
      exact ih hc

/-- What the gauges and counters tell once the channel is empty. -/
structure Exact (sources : List Source) (stream : List Metric) (s : Snapshot) : Prop where
  endpoints : s.activeEndpoints.toNat = sources.countP Source.isReceiving
  unsaturated : ∀ before after, stream = before ++ .endpointStopped :: after →
    (Snapshot.drain {} before).activeEndpoints ≠ 0
  sessions : (∀ x ∈ sources, x.IsSettled) → Counter.sessionsCreated.overall sources < 2 ^ 64 →
    s.sessionsActive.toNat = (sources.map Source.live).sum
  wrapped : (∀ x ∈ sources, x.IsSettled) →
    (s.sessionsActive.toNat = (sources.map Source.live).sum ↔
      Counter.sessionsCreated.overall sources / 2 ^ 64 =
        Counter.sessionsExpired.overall sources / 2 ^ 64)
  workers : (∀ x ∈ sources, ∀ n, .poolGrew n ∈ x.metrics → n % 2 ^ 64 ≤ s.poolWorkers.toNat) ∧
    (s.poolWorkers = 0 ∨ ∃ x ∈ sources, ∃ n, .poolGrew n ∈ x.metrics ∧
      s.poolWorkers.toNat = n % 2 ^ 64)
  counters : ∀ c : Counter, (c.read s).toNat = c.overall sources % 2 ^ 64

theorem gauges_exact {sources : List Source} (hloops : sources.countP Source.isReceiveLoop < 2 ^ 64)
    {stream : List (Nat × Metric)} (hs : Carries sources stream) (settings : TelemetrySettings)
    (hm : settings.enableMetrics = true) {c : Collector} (hc : Collector.start {} settings = .ok c)
    {drains : List (List Metric)} (hd : drains.flatten = stream.map Prod.snd) :
    Exact sources (stream.map Prod.snd) (drains.foldl Collector.record c).snapshot := by
  have hsnapshot :
      (drains.foldl Collector.record c).snapshot = Snapshot.drain {} (stream.map Prod.snd) := by
    rw [Collector.start, hm] at hc
    obtain rfl := Except.ok.inj hc
    rw [Collector.record_flatten rfl, hd]
  rw [hsnapshot]
  constructor
  case endpoints =>
    have hgauge := hs.activeEndpoints_drain hloops List.prefix_rfl
    rw [hs.balance_eq] at hgauge
    exact Int.ofNat.inj hgauge
  case unsaturated =>
    intro before after hsplit hzero
    have hgauge := hs.activeEndpoints_drain hloops (hsplit ▸ List.prefix_append before _)
    have hprefix : before ++ [.endpointStopped] <+: stream.map Prod.snd :=
      ⟨after, by rw [hsplit, List.append_assoc, List.singleton_append]⟩
    have hnext := hs.activeEndpoints_drain hloops hprefix
    rw [balance_append, balance_singleton, ← hgauge, hzero] at hnext
    exact absurd hnext (by simp [change])
  case sessions =>
    intro hsettled hfit
    have hsum := Counter.overall_sessions hsettled
    rw [hs.toNat_sessionsActive]
    omega
  case wrapped =>
    intro hsettled
    have hsum := Counter.overall_sessions hsettled
    rw [hs.toNat_sessionsActive]
    omega
  case workers =>
    constructor
    · exact fun x hx n hn => Snapshot.le_poolWorkers_drain ((hs.mem_iff _).mpr ⟨x, hx, hn⟩)
    · refine (Snapshot.poolWorkers_drain_eq {} (stream.map Prod.snd)).imp_right ?_
      rintro ⟨n, hn, hgauge⟩
      obtain ⟨x, hx, hn⟩ := (hs.mem_iff _).mp hn
      exact ⟨x, hx, n, hn, hgauge⟩
  case counters => exact hs.toNat_read_drain

/-- One dispatcher makes a session, the other arms it, and it expires before it is reported. Then a
second session is made. -/
def lateReport : List Dispatchers.Act :=
  [.arrive ⟨.v4 .loopback 500, [1]⟩, .arrive ⟨.v4 .loopback 500, [2]⟩, .take 0, .route 0, .take 1,
    .route 1, .decide 1, .arm 1, .disarm 1, .tick (.ofSecs 3), .pass, .expire 0, .decide 0,
    .enter 1, .leave 1, .reply 1, .arrive ⟨.v4 .loopback 500, [3]⟩, .take 1, .route 1, .decide 1]

/-- The reports of these dispatchers, of a receive loop that ends, one that goes on, a timer and
a pool. -/
def mixed : List (Nat × Metric) :=
  [(1, .endpointStarted), (2, .sessionExpired), (0, .endpointStarted), (4, .poolGrew 2),
    (2, .sessionCreated),
    (1, .packetReceived 1), (2, .timerFired), (0, .endpointStopped), (3, .timerFired),
    (2, .sessionCreated)]

theorem gauges_exact_mixed :
    ∃ sources c s, Carries sources mixed ∧ Collector.start {} {} = .ok c ∧
      s = ([(mixed.take 3).map Prod.snd, [],
          (mixed.drop 3).map Prod.snd].foldl Collector.record c).snapshot ∧
      Exact sources (mixed.map Prod.snd) s ∧ s.activeEndpoints = 1 ∧ s.sessionsActive = 1 ∧
      sources.countP Source.isReceiving = 1 ∧ (sources.map Source.live).sum = 1 ∧
        ∀ x ∈ sources, x.IsSettled := by
  obtain ⟨r₀, hr₀, hm₀, hrunning₀⟩ :
      ∃ r, (Receiver.fresh ⟨0, .v4 .loopback 4500, 2⟩ (.new .fifo)).run
      [.start, .stop, .reportStop, .readStop] = some r ∧
        r.metrics = [.endpointStarted, .endpointStopped] ∧
        r.isRunning = false := ⟨_, rfl, rfl, rfl⟩
  obtain ⟨r₁, hr₁, hm₁, hrunning₁⟩ :
      ∃ r, (Receiver.fresh ⟨1, .v4 .loopback 4501, 2⟩ (.new .fifo)).run
      [.arrive ⟨.v4 .loopback 500, [1]⟩, .start, .reportSocket, .read .datagram] = some r ∧
        r.metrics = [.endpointStarted, .packetReceived 1] ∧ r.isRunning = true := ⟨_, rfl, rfl, rfl⟩
  have hrun :
      (Dispatchers.run .silent (.start (.new .v4 .fifo ⟨3000, .sliding⟩) 7 2) lateReport).map
      (fun d => (d.metrics, d.live, d.unreported)) =
        some ([.timerFired, .sessionExpired, .sessionCreated, .sessionCreated], 1, 0) := by cbv
  obtain ⟨d, hd, hrun⟩ := Option.map_eq_some_iff.mp hrun
  simp only [Prod.mk.injEq] at hrun
  obtain ⟨hm₂, hlive, hunreported⟩ := hrun
  obtain ⟨l, hl⟩ : ∃ l,
      (Timer.Loop.start 7).run [.make (.ofSecs 1) false "soon", .arm 0, .plan, .tick (.ofSecs 1),
        .timeOut, .resume, .dispatched] = some l := ⟨_, rfl⟩
  obtain ⟨p, hp, hm₄⟩ : ∃ p : Pool Nat, (Pool.new 1 0).run [.submit, .grow, .spawn true] = some p ∧
      p.metrics = [.poolGrew 2] := ⟨_, rfl, rfl⟩
  have hs : Carries [.receiveLoop _ _ _ r₀ hr₀, .receiveLoop _ _ _ r₁ hr₁,
        .dispatchers _ _ _ _ _ _ _ d hd,
      .timer _ _ l hl, .pool _ _ _ p hp] mixed := by
    constructor
    · simp [mixed]
    · intro i x hx
      rcases i with _ | _ | _ | _ | _ | i
      · obtain rfl := Option.some.inj hx
        exact hm₀.symm
      · obtain rfl := Option.some.inj hx
        exact hm₁.symm
      · obtain rfl := Option.some.inj hx
        change (ownReports 2 mixed).Perm d.metrics
        rw [hm₂]
        decide
      · obtain rfl := Option.some.inj hx
        rfl
      · obtain rfl := Option.some.inj hx
        exact hm₄.symm
      · cases hx
  refine ⟨_, _, _, hs, rfl, rfl, ?_, by decide, by decide, ?_, ?_, ?_⟩
  · exact gauges_exact (List.countP_le_length.trans_lt (by simp)) hs {} rfl rfl rfl
  · simp [Source.isReceiving, hrunning₀, hrunning₁]
  · simp [Source.live, hlive]
  · simp only [List.forall_mem_cons, List.not_mem_nil, false_implies, implies_true, and_true]
    exact ⟨trivial, trivial, ⟨by decide, hunreported⟩, trivial, trivial⟩

end SessionDispatch
