import Mathlib
import SessionDispatch.Daemon.Start
import SessionDispatch.Proofs.Run
import SessionDispatch.Proofs.Session.Sessions

/-!
# What one act does to a daemon

Every act has one lemma that tells when it can happen and what is left of it. No act starts a loop,
adds an endpoint or changes the configuration, and all that happens to managers happens to their
contents.
-/

namespace SessionDispatch.Daemon

variable {h : Handler} {d d' : Daemon} {family : Family}

/-! ## Inversion -/

theorem act_receive {id : Nat} {p : Packet} (ha : d.act h (.receive family id p) = some d') :
    d.isRunning (.receiver family id) = true ∧ d' = d.receive family p := by
  dsimp only [act] at ha
  split_ifs at ha with hrun
  exact ⟨hrun, (Option.some.inj ha).symm⟩

/-- What a loop has taken and what its queue is without it. -/
theorem act_take {t : Task} (ha : d.act h (.take t) = some d') :
    d.isRunning t = true ∧ d.hand? t = none ∧ ∃ family m p, d.manager? family = some m ∧
      ((∃ n, t = .dispatcher family n) ∧ m.inbound.take.1 = some p ∧
          d' = (d.modifyManager family fun x => { x with inbound := m.inbound.take.2 }).hold t p ∨
        (∃ id, t = .sender family id) ∧ m.outbound.take.1 = some p ∧
          d' = (d.modifyManager family fun x => { x with outbound := m.outbound.take.2 }).hold t
            p) := by
  dsimp only [act] at ha
  split_ifs at ha with hc
  obtain ⟨hrun, hhand⟩ := hc
  refine ⟨hrun, hhand, ?_⟩
  cases t with
  | timer => cases ha
  | receiver _ _ => cases ha
  | reloadWatcher => cases ha
  | dispatcher family n =>
      obtain ⟨q, hq, ha⟩ := Option.bind_eq_some_iff.mp ha
      obtain ⟨m, hm, rfl⟩ := Option.map_eq_some_iff.mp hq
      obtain ⟨p, hp, ha⟩ := Option.bind_eq_some_iff.mp ha
      exact ⟨family, m, p, hm, .inl ⟨⟨n, rfl⟩, hp, (Option.some.inj ha).symm⟩⟩
  | sender family id =>
      obtain ⟨q, hq, ha⟩ := Option.bind_eq_some_iff.mp ha
      obtain ⟨m, hm, rfl⟩ := Option.map_eq_some_iff.mp hq
      obtain ⟨p, hp, ha⟩ := Option.bind_eq_some_iff.mp ha
      exact ⟨family, m, p, hm, .inr ⟨⟨id, rfl⟩, hp, (Option.some.inj ha).symm⟩⟩

theorem act_dispatch {n : Nat} {panic : Option String}
    (ha : d.act h (.dispatch family n panic) = some d') :
    d.isRunning (.dispatcher family n) = true ∧ ∃ m p h' r done,
      d.manager? family = some m ∧ d.hand? (.dispatcher family n) = some p ∧
      h' = (if panic.isSome then .silent else h) ∧ r = m.dispatch d.timer d.now h' p ∧
      done = (({ d with timer := r.2.2.1 }.modifyManager family fun x =>
        (x.dispatch d.timer d.now h' p).2.1).letGo
        (.dispatcher family n)).report r.2.2.2 ∧
      d' = panic.elim done fun text => done.finish (.dispatcher family n) (.error text) := by
  dsimp only [act] at ha
  split_ifs at ha with hrun
  obtain ⟨m, hm, ha⟩ := Option.bind_eq_some_iff.mp ha
  obtain ⟨p, hp, ha⟩ := Option.bind_eq_some_iff.mp ha
  exact ⟨hrun, m, p, _, _, _, hm, hp, rfl, rfl, rfl, (Option.some.inj ha).symm⟩

theorem act_transmit {id : Nat} {delivery : Delivery}
    (ha : d.act h (.transmit family id delivery) = some d') :
    d.isRunning (.sender family id) = true ∧
      ∃ e p, (d.endpoints family).find? (·.id = id) = some e ∧
      d.hand? (.sender family id) = some p ∧
      ((∃ reason, p.peer.family = family ∧ delivery = .failed reason ∧
          d' = ((d.letGo (.sender family id)).report [.sendError]).finish (.sender family id)
            (.ok (.error (Sender.sendFailure e p reason)))) ∨
        (p.peer.family = family ∧ delivery = .interrupted ∧ d' = d) ∨
        ((p.peer.family = family → delivery = .sent) ∧
          ∃ events, d' = (d.letGo (.sender family id)).report events)) := by
  dsimp only [act] at ha
  split_ifs at ha with hrun
  obtain ⟨e, he, ha⟩ := Option.bind_eq_some_iff.mp ha
  obtain ⟨p, hp, ha⟩ := Option.bind_eq_some_iff.mp ha
  refine ⟨hrun, e, p, he, hp, ?_⟩
  dsimp only at ha
  split_ifs at ha with hfamily
  · cases delivery with
    | sent => exact .inr (.inr ⟨fun _ => rfl, _, (Option.some.inj ha).symm⟩)
    | failed reason => exact .inl ⟨reason, hfamily, rfl, (Option.some.inj ha).symm⟩
    | interrupted => exact .inr (.inl ⟨hfamily, rfl, (Option.some.inj ha).symm⟩)
  · refine .inr (.inr ⟨fun hsame => absurd hsame hfamily, [], ?_⟩)
    rw [report, List.append_nil]
    exact (Option.some.inj ha).symm

theorem act_fail {t : Task} {f : Failure} (ha : d.act h (.fail t f) = some d') :
    d.isRunning t = true ∧ ((∃ family id, t = .receiver family id) ∨ t = .reloadWatcher) ∧
      d' = (d.report (farewell t)).finish t (.ok (.error f)) := by
  cases t with
  | timer => cases ha
  | dispatcher _ _ => cases ha
  | sender _ _ => cases ha
  | receiver family id =>
      dsimp only [act] at ha
      split_ifs at ha with hrun
      exact ⟨hrun, .inl ⟨family, id, rfl⟩, (Option.some.inj ha).symm⟩
  | reloadWatcher =>
      dsimp only [act] at ha
      split_ifs at ha with hrun
      exact ⟨hrun, .inr rfl, (Option.some.inj ha).symm⟩

theorem act_pass (ha : d.act h .pass = some d') :
    d.isRunning .timer = true ∧ d.timer.stopped = false ∧ d' = d.pass := by
  dsimp only [act] at ha
  split_ifs at ha with hc
  exact ⟨hc.1, hc.2, (Option.some.inj ha).symm⟩

theorem act_expire {job : Nat} (ha : d.act h (.expire job) = some d') :
    d.isBusyWith job = true ∧ ∃ e, d.expiries.lookup job = some e ∧ d' = d.expire job e := by
  dsimp only [act] at ha
  split_ifs at ha with hbusy
  obtain ⟨e, he, rfl⟩ := Option.map_eq_some_iff.mp ha
  exact ⟨hbusy, e, he, rfl⟩

theorem act_reload {files : Files} {env : Environment}
    (ha : d.act h (.reload files env) = some d') :
    d.isRunning .reloadWatcher = true ∧ d' = d.reload files env := by
  dsimp only [act] at ha
  split_ifs at ha with hrun
  exact ⟨hrun, (Option.some.inj ha).symm⟩

theorem act_stop (ha : d.act h .stop = some d') :
    d.phase = .running ∧ d' = { d with phase := .ofOrders d.orders } := by
  dsimp only [act] at ha
  split at ha
  · rename_i hphase
    exact ⟨hphase, (Option.some.inj ha).symm⟩
  · cases ha

theorem act_order (ha : d.act h .order = some d') :
    ∃ o left, d.phase = .stopping (o :: left) ∧ d' = { d.give o with phase := .ofOrders left } := by
  dsimp only [act] at ha
  split at ha
  · rename_i o left hphase
    exact ⟨o, left, hphase, (Option.some.inj ha).symm⟩
  · cases ha

theorem act_finish {t : Task} (ha : d.act h (.finish t) = some d') :
    d.isRunning t = true ∧ d.isDone t = true ∧
      d' = (d.report (farewell t)).finish t (.ok (.ok ())) := by
  dsimp only [act] at ha
  split_ifs at ha with hc
  exact ⟨hc.1, hc.2, (Option.some.inj ha).symm⟩

theorem act_join (ha : d.act h .join = some d') :
    ∃ joined failed t job ending, d.phase = .joining joined failed ∧
      d.tasks[joined]? = some (t, job) ∧
      (d.pool.take job).1 = some ending ∧
      d' = { d with
        pool := (d.pool.take job).2
        phase := .joining (joined + 1) (failed ++ ((failureOf ending).map (t, ·)).toList) } := by
  dsimp only [act] at ha
  split at ha
  · rename_i joined failed hphase
    obtain ⟨⟨t, job⟩, htask, ha⟩ := Option.bind_eq_some_iff.mp ha
    obtain ⟨ending, hending, ha⟩ := Option.bind_eq_some_iff.mp ha
    exact ⟨joined, failed, t, job, ending, hphase, htask, hending, (Option.some.inj ha).symm⟩
  · cases ha

theorem act_closePool (ha : d.act h .closePool = some d') :
    ∃ joined failed, d.phase = .joining joined failed ∧ joined = d.tasks.length ∧
      d' = d.closePool joined failed := by
  dsimp only [act] at ha
  split at ha
  · rename_i joined failed hphase
    split_ifs at ha with hlen
    exact ⟨joined, failed, hphase, hlen, (Option.some.inj ha).symm⟩
  · cases ha

theorem act_conclude (ha : d.act h .conclude = some d') :
    ∃ joined failed threads, d.phase = .draining joined failed threads ∧ d.pool.workers = [] ∧
      d' = d.conclude joined failed threads := by
  dsimp only [act] at ha
  split at ha
  · rename_i joined failed threads hphase
    split_ifs at ha with hworkers
    exact ⟨joined, failed, threads, hphase, hworkers, (Option.some.inj ha).symm⟩
  · cases ha

/-! ## Frames -/

/-- The end of a task reaches the pool only. -/
theorem complete_eq (d : Daemon) (job : Nat) (outcome : Pool.Outcome (Except Failure Unit)) :
    d.complete job outcome = { d with pool := (d.complete job outcome).pool } := by
  unfold complete
  split <;> rfl

theorem finish_eq (d : Daemon) (t : Task) (outcome : Pool.Outcome (Except Failure Unit)) :
    d.finish t outcome = { d with pool := (d.finish t outcome).pool } := by
  unfold finish
  cases d.jobOf? t with
  | none => rfl
  | some job => exact complete_eq d job outcome

theorem complete_pool_congr {e : Daemon} (hpool : e.pool = d.pool) (job : Nat)
    (outcome : Pool.Outcome (Except Failure Unit)) :
    (e.complete job outcome).pool = (d.complete job outcome).pool := by
  unfold complete
  rw [hpool]
  split
  · rfl
  · exact hpool

theorem finish_pool_congr {e : Daemon} (hpool : e.pool = d.pool) (htasks : e.tasks = d.tasks)
    (t : Task) (outcome : Pool.Outcome (Except Failure Unit)) :
    (e.finish t outcome).pool = (d.finish t outcome).pool := by
  unfold finish jobOf?
  rw [htasks]
  cases d.tasks.lookup t with
  | none => exact hpool
  | some job => exact complete_pool_congr hpool job outcome

/-- A handed over expiry reaches the pool, and stands among those that are to be carried out if it
got there. -/
theorem handOver_eq (d : Daemon) (e : Expiry) : d.handOver e =
    { d with
      pool := d.submit.2.pool
      expiries := d.expiries ++ d.submit.1.toList.map (·, e)
      reported := d.reported ++ [.timerFired] } := by
  unfold handOver submit report
  cases d.pool.submit with
  | mk job pool => cases job <;> simp [Except.toOption]

/-- A pass reaches the timer and the pool, and hands over expiries. -/
theorem pass_eq (d : Daemon) : d.pass =
    { d with
      pool := d.pass.pool
      timer := (d.timer.pass d.now).2
      expiries := d.pass.expiries
      reported := d.pass.reported } := by
  have hfold : ∀ (es : List (Timer.Event Expiry)) (d : Daemon),
      es.foldl (fun d event => d.handOver event.action) d =
        { d with
          pool := (es.foldl (fun d event => d.handOver event.action) d).pool
          expiries := (es.foldl (fun d event => d.handOver event.action) d).expiries
          reported := (es.foldl (fun d event => d.handOver event.action) d).reported } := by
    intro es
    induction es with
    | nil => exact fun _ => rfl
    | cons e es ih =>
        intro d
        rw [List.foldl_cons, ih, handOver_eq]
  exact hfold _ { d with timer := (d.timer.pass d.now).2 }

theorem manager?_eq (d : Daemon) (family : Family) :
    d.manager? family = (d.services.map (·.manager)).find? (·.family = family) := by
  rw [manager?, service?, List.find?_map]
  rfl

/-- Managers that keep their families are found again. -/
theorem manager?_modifyManagers {f : SessionManager → SessionManager}
    (hf : ∀ m, (f m).family = m.family) (d : Daemon) (family : Family) :
    (d.modifyManagers f).manager? family = (d.manager? family).map f := by
  rw [manager?_eq, manager?_eq, modifyManagers, List.map_map]
  have hmap : d.services.map ((·.manager) ∘ fun s => { s with manager := f s.manager }) =
      (d.services.map (·.manager)).map f := by
    rw [List.map_map]
    rfl
  rw [hmap, List.find?_map]
  congr 1
  refine List.find?_congr fun m _ => ?_
  simp [hf]

theorem family_of_manager? {m : SessionManager} (hm : d.manager? family = some m) :
    m.family = family := by
  rw [manager?_eq] at hm
  have hfound := List.find?_some hm
  exact of_decide_eq_true hfound

theorem manager?_modifyManager {f : SessionManager → SessionManager}
    (hf : ∀ m, m.family = family → (f m).family = family) (d : Daemon) (other : Family) :
    (d.modifyManager family f).manager? other =
      if other = family then (d.manager? other).map f else d.manager? other := by
  have hkeep : ∀ m : SessionManager, (if m.family = family then f m else m).family = m.family := by
    intro m
    split_ifs with hm
    · rw [hf m hm, hm]
    · rfl
  rw [modifyManager, manager?_modifyManagers hkeep]
  cases hm : d.manager? other with
  | none => simp
  | some m =>
      have hfamily := family_of_manager? hm
      subst hfamily
      by_cases hc : m.family = family <;> simp [hc]

/-- The managers are changed, and each still serves its family at the same endpoints. Their policies
change as told. -/
def Reshaped (f : ExpiryPolicy → ExpiryPolicy) (d d' : Daemon) : Prop :=
  ∃ g : SessionManager →
    SessionManager, (∀ m, (g m).family = m.family ∧ (g m).policy = f m.policy) ∧
    d'.services = d.services.map fun s => { s with manager := g s.manager }

namespace Reshaped

variable {f : ExpiryPolicy → ExpiryPolicy}

theorem of_eq (hs : d'.services = d.services) : Reshaped id d d' := by
  refine ⟨id, fun _ => ⟨rfl, rfl⟩, ?_⟩
  rw [hs]
  exact (List.map_id _).symm

theorem of_modifyManagers (g : SessionManager → SessionManager)
    (hs : d'.services = (d.modifyManagers g).services)
    (hg : ∀ m, (g m).family = m.family ∧ (g m).policy = f m.policy) : Reshaped f d d' := ⟨g, hg, hs⟩

theorem of_modifyManager (g : SessionManager → SessionManager)
    (hs : d'.services = (d.modifyManager family g).services)
    (hg : ∀ m, (g m).family = m.family ∧ (g m).policy = m.policy) : Reshaped id d d' := by
  refine of_modifyManagers _ hs fun m => ?_
  split_ifs
  · exact hg m
  · exact ⟨rfl, rfl⟩

theorem families (hr : Reshaped f d d') :
    d'.services.map (·.family) = d.services.map (·.family) := by
  obtain ⟨g, hg, hs⟩ := hr
  rw [hs, List.map_map]
  exact List.map_congr_left fun s _ => (hg s.manager).1

theorem policies (hr : Reshaped f d d') :
    d'.services.map (·.manager.policy) = d.services.map fun s => f s.manager.policy := by
  obtain ⟨g, hg, hs⟩ := hr
  rw [hs, List.map_map]
  exact List.map_congr_left fun s _ => (hg s.manager).2

theorem endpoints (hr : Reshaped f d d') (family : Family) :
    d'.endpoints family = d.endpoints family := by
  obtain ⟨g, hg, hs⟩ := hr
  unfold Daemon.endpoints service?
  rw [hs, List.find?_map]
  have hfind : d.services.find? ((fun s : FamilyService => decide (s.family = family)) ∘
      fun s => { s with manager := g s.manager }) = d.services.find? (·.family = family) := by
    refine List.find?_congr fun s _ => ?_
    simp only [Function.comp_apply, FamilyService.family, (hg s.manager).1]
    rfl
  rw [hfind]
  cases d.services.find? (·.family = family) <;> rfl

theorem orders (hr : Reshaped f d d') : d'.orders = d.orders := by
  obtain ⟨g, hg, hs⟩ := hr
  unfold Daemon.orders
  rw [hs, List.flatMap_map]
  congr 1
  refine List.flatMap_congr fun s _ => ?_
  simp [FamilyService.family, (hg s.manager).1]

end Reshaped

/-- What an act makes of the policies: a reload that succeeds puts its own in their place. -/
def repolicy (d : Daemon) : Act → ExpiryPolicy → ExpiryPolicy
  | .reload files env =>
      fun policy => (d.reloaded? files env).elim policy (·.settings.dispatch.policy)
  | _ => id

/-- Whatever happens, the loops are those that were started, and the managers and endpoints are at
their places. -/
theorem act_frame {a : Act} (ha : d.act h a = some d') :
    d'.tasks = d.tasks ∧ d'.configuration = d.configuration ∧ Reshaped (d.repolicy a) d d' := by
  cases a with
  | receive family id p =>
      obtain ⟨-, rfl⟩ := act_receive ha
      exact ⟨rfl, rfl, .of_modifyManager
        (fun m => { m with inbound := (m.inbound.push p).2 }) rfl fun _ => ⟨rfl, rfl⟩⟩
  | take t =>
      obtain ⟨-, -, family, m, p, -, ⟨-, -, rfl⟩ | ⟨-, -, rfl⟩⟩ := act_take ha
      · exact ⟨rfl, rfl, .of_modifyManager
          (fun x => { x with inbound := m.inbound.take.2 }) rfl fun _ => ⟨rfl, rfl⟩⟩
      · exact ⟨rfl, rfl, .of_modifyManager
          (fun x => { x with outbound := m.outbound.take.2 }) rfl fun _ => ⟨rfl, rfl⟩⟩
  | dispatch family n panic =>
      obtain ⟨-, m, p, h', r, done, -, -, -, -, hdone, rfl⟩ := act_dispatch ha
      have hframe : done.tasks = d.tasks ∧ done.configuration = d.configuration ∧
          Reshaped id d done := by
        subst hdone
        refine ⟨rfl, rfl,
          .of_modifyManager (fun x => (x.dispatch d.timer d.now h' p).2.1) rfl fun x => ?_⟩
        obtain ⟨⟨table, sessions, replies, hmanager⟩, -⟩ := x.dispatch_frame d.timer d.now h' p
        rw [hmanager]
        exact ⟨rfl, rfl⟩
      cases panic with
      | none => exact hframe
      | some text =>
          dsimp only [Option.elim_some]
          rw [finish_eq]
          exact hframe
  | transmit family id delivery =>
      obtain ⟨-, e, p, -, -, ⟨reason, -, -, rfl⟩ | ⟨-, -, rfl⟩ | ⟨-, events, rfl⟩⟩ :=
        act_transmit ha
      · rw [finish_eq]
        exact ⟨rfl, rfl, .of_eq rfl⟩
      · exact ⟨rfl, rfl, .of_eq rfl⟩
      · exact ⟨rfl, rfl, .of_eq rfl⟩
  | fail t f =>
      obtain ⟨-, -, rfl⟩ := act_fail ha
      rw [finish_eq]
      exact ⟨rfl, rfl, .of_eq rfl⟩
  | tick span =>
      obtain rfl := Option.some.inj ha
      exact ⟨rfl, rfl, .of_eq rfl⟩
  | pass =>
      obtain ⟨-, -, rfl⟩ := act_pass ha
      rw [pass_eq]
      exact ⟨rfl, rfl, .of_eq rfl⟩
  | expire job =>
      obtain ⟨-, e, -, rfl⟩ := act_expire ha
      unfold expire
      rw [complete_eq]
      refine ⟨rfl, rfl, .of_modifyManager (fun m => (m.expire e).1) rfl fun m => ?_⟩
      rw [m.expire_eq]
      exact ⟨rfl, rfl⟩
  | reload files env =>
      obtain ⟨-, rfl⟩ := act_reload ha
      unfold reload
      cases hc : d.reloaded? files env with
      | none =>
          have hsame : d.repolicy (.reload files env) = id := by
            funext policy
            rw [repolicy, hc]
            rfl
          rw [hsame]
          exact ⟨rfl, rfl, .of_eq rfl⟩
      | some c =>
          refine ⟨rfl, rfl,
            .of_modifyManagers (fun m => { m with policy := c.settings.dispatch.policy }) rfl
            fun m => ⟨rfl, ?_⟩⟩
          rw [repolicy, hc]
          rfl
  | stop =>
      obtain ⟨-, rfl⟩ := act_stop ha
      exact ⟨rfl, rfl, .of_eq rfl⟩
  | order =>
      obtain ⟨o, left, -, rfl⟩ := act_order ha
      cases o with
      | signal t => exact ⟨rfl, rfl, .of_eq rfl⟩
      | stopTimer => exact ⟨rfl, rfl, .of_eq rfl⟩
      | closeInbound family =>
          exact ⟨rfl, rfl, .of_modifyManager
            (fun m => { m with inbound := m.inbound.close }) rfl fun _ => ⟨rfl, rfl⟩⟩
      | closeOutbound family =>
          exact ⟨rfl, rfl, .of_modifyManager
            (fun m => { m with outbound := m.outbound.close }) rfl fun _ => ⟨rfl, rfl⟩⟩
  | finish t =>
      obtain ⟨-, -, rfl⟩ := act_finish ha
      rw [finish_eq]
      exact ⟨rfl, rfl, .of_eq rfl⟩
  | join =>
      obtain ⟨joined, failed, t, job, ending, -, -, -, rfl⟩ := act_join ha
      exact ⟨rfl, rfl, .of_eq rfl⟩
  | closePool =>
      obtain ⟨joined, failed, -, -, rfl⟩ := act_closePool ha
      exact ⟨rfl, rfl, .of_eq rfl⟩
  | conclude =>
      obtain ⟨joined, failed, threads, -, -, rfl⟩ := act_conclude ha
      exact ⟨rfl, rfl, .of_modifyManagers (·.clear.2) rfl fun _ => ⟨rfl, rfl⟩⟩

end SessionDispatch.Daemon
