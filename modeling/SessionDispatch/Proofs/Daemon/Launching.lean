import SessionDispatch.Proofs.Daemon.Steps
import SessionDispatch.Proofs.Pool.Calls

/-!
# What a start has started

Loops are submitted one after the other and numbered in this order. A family comes with its
dispatchers and with two loops for each endpoint that could be bound. So the loops that a start
leaves, whether it succeeds or not, are told by the endpoints that could be bound up to then.
-/

namespace SessionDispatch.Daemon

/-! ## Loops that were started -/

/-- Loops were started one after the other, and none has ended. -/
structure Enlisted (crew threshold : Nat) (d : Daemon) : Prop where
  pool : d.pool.Healthy crew
  isOpen : d.pool.stopping = false
  limit : d.pool.threshold = threshold
  jobs : d.tasks.map (·.2) = List.range d.tasks.length
  nextTask : d.pool.nextTask = d.tasks.length
  live : d.pool.live.Perm (List.range d.tasks.length)
  slots : ∀ job, d.pool.slot job = {}
  steady : d.tasks.length ≤ threshold → d.pool.workerCount = crew

section Spawn

variable {crew threshold : Nat} {d : Daemon}

theorem spawn_of_open (hopen : d.pool.stopping = false) (t : Task) : d.spawn t = { d with
    pool := d.pool.submit.2.settle fun _ _ => none
    tasks := d.tasks ++ [(t, d.pool.nextTask)] } := by
  obtain ⟨growing, hsub⟩ := Pool.submit_of_open hopen
  unfold spawn submit
  rw [hsub]
  rfl

theorem Enlisted.spawn (hd : d.Enlisted crew threshold) (t : Task) :
    (d.spawn t).Enlisted crew threshold := by
  have hadm := hd.pool.toSettled.admitted hd.isOpen
  rw [spawn_of_open hd.isOpen]
  have hlen : (d.tasks ++ [(t, d.pool.nextTask)]).length = d.tasks.length + 1 := List.length_append
  refine ⟨hd.pool.submit hd.isOpen, hadm.stopping, hadm.threshold.trans hd.limit, ?_, ?_, ?_, ?_,
    ?_⟩
  · rw [hlen, List.map_append, hd.jobs, List.range_succ, hd.nextTask]
    rfl
  · rw [hlen, hadm.nextTask, hd.nextTask]
  · rw [hlen, List.range_succ]
    have hperm := hadm.live.trans (hd.live.cons d.pool.nextTask)
    rw [hd.nextTask] at hperm
    exact hperm.trans (List.perm_append_singleton ..).symm
  · exact fun job => (hadm.slot job).trans (hd.slots job)
  · intro hle
    have hle : d.tasks.length + 1 ≤ threshold := hlen ▸ hle
    have hout : d.pool.outstanding = d.tasks.length := by
      rw [← hd.pool.sound.length_live, hd.live.length_eq, List.length_range]
    rw [hadm.workerCount, hd.limit, hout, hd.steady (by omega), if_neg (by omega)]
    rfl

theorem spawn_eq (hd : d.Enlisted crew threshold) (t : Task) : d.spawn t = { d with
    pool := (d.spawn t).pool
    tasks := d.tasks ++ [(t, d.tasks.length)] } := by
  rw [spawn_of_open hd.isOpen, hd.nextTask]

/-- What happens besides does not reach the pool or the loops. -/
theorem Enlisted.of_same {d' : Daemon} (hd : d.Enlisted crew threshold) (hpool : d'.pool = d.pool)
    (htasks : d'.tasks = d.tasks) : d'.Enlisted crew threshold := by
  constructor
  · exact hpool ▸ hd.pool
  · exact hpool ▸ hd.isOpen
  · exact hpool ▸ hd.limit
  · exact htasks ▸ hd.jobs
  · rw [hpool, htasks]
    exact hd.nextTask
  · rw [hpool, htasks]
    exact hd.live
  · exact hpool ▸ hd.slots
  · rw [hpool, htasks]
    exact hd.steady

/-- Several loops are started. -/
theorem spawns (hd : d.Enlisted crew threshold) (ts : List Task) :
    (ts.foldl Daemon.spawn d).Enlisted crew threshold ∧
      (ts.foldl Daemon.spawn d).tasks.map (·.1) = d.tasks.map (·.1) ++ ts ∧
      ts.foldl Daemon.spawn d = { d with
        pool := (ts.foldl Daemon.spawn d).pool
        tasks := (ts.foldl Daemon.spawn d).tasks } := by
  induction ts generalizing d with
  | nil => exact ⟨hd, (List.append_nil _).symm, rfl⟩
  | cons t ts ih =>
      obtain ⟨henlisted, htasks, heq⟩ := ih (hd.spawn t)
      have hspawn := spawn_eq hd t
      refine ⟨henlisted, ?_, ?_⟩
      · rw [List.foldl_cons, htasks, hspawn, List.map_append, List.append_assoc]
        rfl
      · rw [List.foldl_cons, heq, hspawn]

end Spawn

/-- How many workers a pool is started with. -/
def crewOf (c : Configuration) : Nat :=
  max (c.settings.runtime.poolThreads + c.settings.longRunning).toNat 1

/-- The first loop is started in a pool of workers that were just started. -/
theorem enlisted_new (c : Configuration) (now : Instant) :
    ((new c now).spawn .timer).Enlisted (crewOf c) c.settings.runtime.growthThreshold.toNat ∧
      (new c now).spawn .timer = { new c now with
        pool := ((new c now).spawn .timer).pool
        tasks := [(.timer, 0)] } := by
  have hpool :
      (new c now).pool = .new (c.settings.runtime.poolThreads + c.settings.longRunning).toNat
      c.settings.runtime.growthThreshold.toNat := rfl
  have hspawn := spawn_of_open (d := new c now) rfl .timer
  obtain ⟨hhealthy, hadm⟩ := Pool.new_submit (α := Except Failure Unit)
    (c.settings.runtime.poolThreads + c.settings.longRunning).toNat
    c.settings.runtime.growthThreshold.toNat
  rw [hpool] at hspawn
  rw [hspawn]
  -- How the pool settles does not matter any more, and must not be computed.
  generalize (Pool.new _ _ : Pool (Except Failure Unit)).submit.2.settle _ = q at hhealthy hadm ⊢
  refine ⟨⟨hhealthy, hadm.stopping, hadm.threshold, rfl, hadm.nextTask, ?_, hadm.slot,
    hadm.workerCount_new⟩, rfl⟩
  have hlive := hadm.live
  rw [Pool.live_new] at hlive
  exact hlive

/-! ## Endpoints -/

/-- The outcome of binding one endpoint of a family, if so many sockets were asked for before those
of the family. -/
def bindOutcome (network : Network) (s : Settings) (family : Family) (sockets id : Nat) :
    Except Failure Endpoint :=
  Endpoint.bind network (sockets + id) id family
    (s.network.host family) s.network.port s.netio.recvBufferSize.toNat

/-- The endpoints of a family that can be bound among its first ones. -/
def bound (network : Network) (s : Settings) (family : Family) (sockets count : Nat) :
    List Endpoint :=
  (List.range count).filterMap fun id => (bindOutcome network s family sockets id).toOption

/-- The families in turn, each with all the endpoints that it gets. -/
def bindings (network : Network) (s : Settings) :
    List Family → (sockets : Nat) → List (Family × List Endpoint)
  | [], _ => []
  | family :: rest, sockets =>
    (family, bound network s family sockets s.netio.endpointsPerFamily.toNat) ::
      bindings network s rest (sockets + s.netio.endpointsPerFamily.toNat)

def dispatchers (s : Settings) (family : Family) : List Task :=
  (List.range s.dispatch.dispatchersPerFamily.toNat).map (.dispatcher family)

def endpointLoops (family : Family) (endpoints : List Endpoint) : List Task :=
  endpoints.flatMap fun e => [.receiver family e.id, .sender family e.id]

/-- The timer first, then for each family its dispatchers and the loops of its endpoints. -/
def loops (s : Settings) (served : List (Family × List Endpoint)) : List Task :=
  .timer :: served.flatMap fun b => dispatchers s b.1 ++ endpointLoops b.1 b.2

theorem id_of_bindOutcome {network : Network} {s : Settings} {family : Family} {sockets id : Nat}
    {e : Endpoint} (he : bindOutcome network s family sockets id = .ok e) : e.id = id := by
  unfold bindOutcome Endpoint.bind at he
  cases hr : network.resolve family (s.network.host family) s.network.port with
  | error f =>
      rw [hr] at he
      cases he
  | ok wanted =>
      rw [hr] at he
      cases hb : network.bind (sockets + id) wanted with
      | error reason => simp [bind, Except.bind, hb] at he
      | ok address =>
          simp only [bind, Except.bind, hb] at he
          exact congrArg Endpoint.id (Except.ok.inj he).symm

theorem bound_succ (network : Network) (s : Settings) (family : Family) (sockets count : Nat) :
    bound network s family sockets (count + 1) =
      bound network s family sockets count ++
        (bindOutcome network s family sockets count).toOption.toList := by
  rw [bound, bound, List.range_succ, List.filterMap_append]
  congr 1

def service (s : Settings) (family : Family) (endpoints : List Endpoint) : FamilyService :=
  ⟨.new family s.dispatch.queueOrder s.dispatch.policy, endpoints⟩

section Endpoints

variable {s : Settings} {family : Family} {before : List FamilyService} {crew threshold : Nat}

theorem addEndpoint_services {d : Daemon} {endpoints : List Endpoint}
    (hs : d.services = before ++ [service s family endpoints])
    (hb : ∀ b ∈ before, b.family ≠ family) (e : Endpoint) :
    (d.addEndpoint family e).services = before ++ [service s family (endpoints ++ [e])] := by
  change d.services.map
    (fun s => if s.family = family then { s with endpoints := s.endpoints ++ [e] } else s) = _
  rw [hs, List.map_append]
  congr 1
  · refine (List.map_congr_left fun b hm => ?_).trans before.map_id
    exact if_neg (hb b hm)
  · simp [service, FamilyService.family, SessionManager.new]

structure Endpointed (network : Network) (s : Settings) (family : Family)
    (before : List FamilyService) (crew threshold : Nat) (l l' : Launch) (count : Nat) : Prop where
  enlisted : l'.daemon.Enlisted crew threshold
  sockets : l'.sockets = l.sockets + count
  services : l'.daemon.services =
    before ++ [service s family (bound network s family l.sockets count)]
  tasks : l'.daemon.tasks.map (·.1) =
    l.daemon.tasks.map (·.1) ++ endpointLoops family (bound network s family l.sockets count)
  same : l'.daemon = { l.daemon with
    pool := l'.daemon.pool
    tasks := l'.daemon.tasks
    services := l'.daemon.services
    reported := l'.daemon.reported }

theorem startEndpoints (network : Network) (l : Launch) (hd : l.daemon.Enlisted crew threshold)
    (hs : l.daemon.services = before ++ [service s family []])
    (hb : ∀ b ∈ before, b.family ≠ family) (count : Nat) :
    Endpointed network s family before crew threshold l
      ((List.range count).foldl (Launch.startEndpoint network s family) l) count := by
  induction count with
  | zero => exact ⟨hd, rfl, hs, (List.append_nil _).symm, rfl⟩
  | succ count ih =>
      rw [List.range_succ, List.foldl_append]
      generalize (List.range count).foldl (Launch.startEndpoint network s family) l = l' at ih
      obtain ⟨hd', hsockets, hservices, htasks, hsame⟩ := ih
      change Endpointed network s family before crew threshold l
        (l'.startEndpoint network s family count) (count + 1)
      have hout :
          Endpoint.bind network l'.sockets count family (s.network.host family) s.network.port
          s.netio.recvBufferSize.toNat = bindOutcome network s family l.sockets count := by
        rw [bindOutcome, hsockets]
      unfold Launch.startEndpoint
      rw [hout]
      cases hbind : bindOutcome network s family l.sockets count with
      | error f =>
          have hbound := bound_succ network s family l.sockets count
          rw [hbind] at hbound
          change _ = _ ++ [] at hbound
          rw [List.append_nil] at hbound
          refine ⟨hd', ?_, ?_, ?_, hsame⟩
          · exact congrArg (· + 1) hsockets
          · rw [hbound]
            exact hservices
          · rw [hbound]
            exact htasks
      | ok e =>
          have hbound := bound_succ network s family l.sockets count
          rw [hbind] at hbound
          change _ = _ ++ [e] at hbound
          have hid := id_of_bindOutcome hbind
          have hadd : (l'.daemon.addEndpoint family e).Enlisted crew threshold :=
            hd'.of_same rfl rfl
          have hreceiver := spawn_eq hadd (.receiver family count)
          have hafter : (((l'.daemon.addEndpoint family e).spawn (.receiver family count)).report
              [.endpointStarted]).Enlisted crew threshold := (hadd.spawn _).of_same rfl rfl
          have hsender := spawn_eq hafter (.sender family count)
          refine ⟨hafter.spawn _, congrArg (· + 1) hsockets, ?_, ?_, ?_⟩
          · dsimp only
            rw [hsender, hbound]
            change ((l'.daemon.addEndpoint family e).spawn _).services = _
            rw [hreceiver]
            exact addEndpoint_services hservices hb e
          · dsimp only
            rw [hsender, hbound, endpointLoops, List.flatMap_append, ← List.append_assoc]
            change (((l'.daemon.addEndpoint family e).spawn _).tasks ++ _).map (·.1) = _
            rw [hreceiver]
            change ((l'.daemon.tasks ++ _) ++ _).map (·.1) = _
            rw [List.map_append, List.map_append, htasks, List.append_assoc]
            simp [endpointLoops, hid]
          · dsimp only
            rw [hsender]
            rw [hreceiver, hsame]
            rfl

end Endpoints

/-! ## The whole start -/

/-- What a start has launched: the loops of these families with these endpoints, and those that
come last. -/
structure Launched (c : Configuration) (now : Instant) (served : List (Family × List Endpoint))
    (last : List Task) (d : Daemon) : Prop where
  enlisted : d.Enlisted (crewOf c) c.settings.runtime.growthThreshold.toNat
  services : d.services = served.map fun b => service c.settings b.1 b.2
  tasks : d.tasks.map (·.1) = loops c.settings served ++ last
  same : d = { new c now with
    pool := d.pool
    tasks := d.tasks
    services := d.services
    reported := d.reported }

section Launch

variable {c : Configuration} {now : Instant} {served : List (Family × List Endpoint)}

theorem launched_new (c : Configuration) (now : Instant) :
    Launched c now [] [] ((new c now).spawn .timer) := by
  obtain ⟨henlisted, hsame⟩ := enlisted_new c now
  refine ⟨henlisted, ?_, ?_, ?_⟩
  · rw [hsame]
    rfl
  · rw [hsame]
    rfl
  · rw [hsame]

theorem Launched.spawn {d : Daemon} (hd : Launched c now served [] d) (t : Task) :
    Launched c now served [t] (d.spawn t) := by
  have hspawn := spawn_eq hd.enlisted t
  refine ⟨hd.enlisted.spawn t, ?_, ?_, ?_⟩
  · rw [hspawn]
    exact hd.services
  · rw [hspawn, List.map_append, hd.tasks, List.append_nil]
    rfl
  · rw [hspawn, hd.same]

/-- A family is started with the endpoints that it gets. -/
theorem Launched.startFamily (network : Network) {l : Launch}
    (hl : Launched c now served [] l.daemon) {family : Family} (hnew : ∀ b ∈ served, b.1 ≠ family) :
    Launched c now (served ++ [(family, bound network c.settings family l.sockets
        c.settings.netio.endpointsPerFamily.toNat)]) []
            (l.startFamily network c.settings family).daemon ∧
      (l.startFamily network c.settings family).sockets =
        l.sockets + c.settings.netio.endpointsPerFamily.toNat := by
  have hregistered : Daemon.Enlisted (crewOf c) c.settings.runtime.growthThreshold.toNat
      { l.daemon with services := l.daemon.services ++ [service c.settings family []] } :=
    hl.enlisted.of_same rfl rfl
  obtain ⟨hdispatching, htasks, hsame⟩ := spawns hregistered (dispatchers c.settings family)
  have hfold : (List.range c.settings.dispatch.dispatchersPerFamily.toNat).foldl
      (fun d n => d.spawn (.dispatcher family n))
      { l.daemon with services := l.daemon.services ++ [service c.settings family []] } =
        (dispatchers c.settings family).foldl Daemon.spawn
          { l.daemon with services := l.daemon.services ++ [service c.settings family []] } := by
    rw [dispatchers, List.foldl_map]
  have hstart : l.startFamily network c.settings family =
      (List.range c.settings.netio.endpointsPerFamily.toNat).foldl
        (Launch.startEndpoint network c.settings family)
        ⟨(dispatchers c.settings family).foldl Daemon.spawn
          { l.daemon with services := l.daemon.services ++ [service c.settings family []] },
            l.sockets⟩ := by
    rw [← hfold]
    rfl
  rw [hstart]
  generalize (dispatchers c.settings family).foldl Daemon.spawn
    { l.daemon with services := l.daemon.services ++ [service c.settings family []] } = d at *
  have hbefore : ∀ b ∈ l.daemon.services, b.family ≠ family := by
    rw [hl.services]
    intro b hb
    obtain ⟨x, hx, rfl⟩ := List.mem_map.mp hb
    exact hnew x hx
  have hservices : d.services = l.daemon.services ++ [service c.settings family []] := by rw [hsame]
  obtain ⟨henlisted, hsockets, hservices', htasks', hsame'⟩ := startEndpoints network
    ⟨d, l.sockets⟩ hdispatching hservices hbefore c.settings.netio.endpointsPerFamily.toNat
  refine ⟨⟨henlisted, ?_, ?_, ?_⟩, hsockets⟩
  · rw [hservices', hl.services, List.map_append]
    rfl
  · rw [htasks', htasks, hl.tasks, loops, loops, List.flatMap_append, List.append_nil,
      List.append_nil]
    simp [List.append_assoc]
  · rw [hsame', hsame, hl.same]

/-- Families that are all new. -/
theorem startFamilies_spec (network : Network) {families : List Family} {l : Launch}
    (hl : Launched c now served [] l.daemon) (hnew : ∀ b ∈ served, b.1 ∉ families)
    (hnodup : families.Nodup) :
    match Launch.startFamilies network c.settings families l with
    | .ok d => Launched c now (served ++ bindings network c.settings families l.sockets) [] d ∧
        ∀ b ∈ bindings network c.settings families l.sockets, b.2 ≠ []
    | .error (family, d) => ∃ before after,
        bindings network c.settings families l.sockets = before ++ (family, []) :: after ∧
          (∀ b ∈ before, b.2 ≠ []) ∧ Launched c now (served ++ before ++ [(family, [])]) [] d := by
  induction families generalizing l served with
  | nil =>
      refine ⟨?_, fun b hb => absurd hb List.not_mem_nil⟩
      rw [bindings, List.append_nil]
      exact hl
  | cons family rest ih =>
      have hfirst : ∀ b ∈ served, b.1 ≠ family :=
        fun b hb hfamily => hnew b hb (hfamily ▸ List.mem_cons_self)
      obtain ⟨hlaunched, hsockets⟩ := hl.startFamily network hfirst
      rw [Launch.startFamilies]
      generalize hl' : l.startFamily network c.settings family = l' at hlaunched hsockets
      generalize hes : bound network c.settings family l.sockets
        c.settings.netio.endpointsPerFamily.toNat = es
        at hlaunched
      have hendpoints : l'.daemon.endpoints family = es := by
        unfold Daemon.endpoints service?
        rw [hlaunched.services, List.map_append, List.find?_append, List.find?_eq_none.mpr]
        · simp [service, FamilyService.family, SessionManager.new]
        · intro b hb
          obtain ⟨x, hx, rfl⟩ := List.mem_map.mp hb
          have hne : x.1 ≠ family := fun hfamily => hnew x hx (hfamily ▸ List.mem_cons_self)
          exact fun hfamily => hne (of_decide_eq_true hfamily)
      have hbindings : bindings network c.settings (family :: rest) l.sockets =
          (family, es) :: bindings network c.settings rest l'.sockets := by
        rw [bindings, hes, hsockets]
      rw [hendpoints, hbindings]
      by_cases hnone : es = []
      · rw [if_pos hnone]
        subst hnone
        refine ⟨[], _, rfl, fun b hb => absurd hb List.not_mem_nil, ?_⟩
        rw [List.append_nil]
        exact hlaunched
      · rw [if_neg hnone]
        have hnew' : ∀ b ∈ served ++ [(family, es)], b.1 ∉ rest := by
          intro b hb
          rcases List.mem_append.mp hb with hb | hb
          · exact fun hrest => hnew b hb (List.mem_cons_of_mem _ hrest)
          · rw [List.mem_singleton.mp hb]
            exact (List.nodup_cons.mp hnodup).1
        have hrest := ih hlaunched hnew' (List.nodup_cons.mp hnodup).2
        cases hstart : Launch.startFamilies network c.settings rest l' with
        | ok d =>
            rw [hstart] at hrest
            obtain ⟨hd, hall⟩ := hrest
            rw [List.append_assoc] at hd
            exact ⟨hd, List.forall_mem_cons.mpr ⟨hnone, hall⟩⟩
        | error failed =>
            obtain ⟨other, d⟩ := failed
            rw [hstart] at hrest
            obtain ⟨before, after, hsplit, hall, hd⟩ := hrest
            refine ⟨(family, es) :: before, after, ?_, List.forall_mem_cons.mpr ⟨hnone, hall⟩, ?_⟩
            · rw [hsplit]
              rfl
            · rw [List.append_assoc served [(family, es)] before] at hd
              exact hd

end Launch

theorem families_nodup (s : NetworkSettings) : s.families.Nodup :=
  List.Nodup.filter _ (by decide)

/-- A start succeeds if there is a family and each gets an endpoint, and it fails at the first that
gets none. -/
theorem start_spec (h : Handler) (network : Network) (c : Configuration) (now : Instant) :
    let all := bindings network c.settings c.settings.network.families 0
    match start h network c now with
    | .ok d => all ≠ [] ∧ (∀ b ∈ all, b.2 ≠ []) ∧ Launched c now all [.reloadWatcher] d
    | .error (.noFamily, left) => all = [] ∧ left = none
    | .error (.unbound family host port, left) => host = c.settings.network.host family ∧
        port = c.settings.network.port ∧ ∃ before after d, all = before ++ (family, []) :: after ∧
          (∀ b ∈ before, b.2 ≠ []) ∧ Launched c now (before ++ [(family, [])]) [] d ∧
          left = some (d.shutdown h network) := by
  intro all
  unfold start
  dsimp only
  by_cases hnone : c.settings.network.families = []
  · rw [if_pos hnone]
    refine ⟨?_, rfl⟩
    change bindings network c.settings c.settings.network.families 0 = []
    rw [hnone]
    rfl
  · rw [if_neg hnone]
    have hne : all ≠ [] := by
      obtain ⟨family, rest, hfamilies⟩ := List.exists_cons_of_ne_nil hnone
      change bindings network c.settings c.settings.network.families 0 ≠ []
      rw [hfamilies]
      exact List.cons_ne_nil _ _
    have hspec :=
      startFamilies_spec network (l := ⟨(new c now).spawn .timer, 0⟩) (launched_new c now)
      (fun b hb => absurd hb List.not_mem_nil) (families_nodup c.settings.network)
    cases hstart : Launch.startFamilies network c.settings c.settings.network.families
        ⟨(new c now).spawn .timer, 0⟩ with
    | ok d =>
        rw [hstart] at hspec
        exact ⟨hne, hspec.2, hspec.1.spawn .reloadWatcher⟩
    | error failed =>
        obtain ⟨family, d⟩ := failed
        rw [hstart] at hspec
        obtain ⟨before, after, hsplit, hall, hd⟩ := hspec
        exact ⟨rfl, rfl, before, after, d, hsplit, hall, hd, rfl⟩

end SessionDispatch.Daemon
