import SessionDispatch.Proofs.Daemon.Starts

/-!
# How large the pool is

The count of long-running loops that the settings give is the count of those that a start launches,
apart from two for every endpoint that cannot be bound. The pool has workers for all of them and for
short tasks besides, and it grows beyond that only if more tasks are outstanding than its threshold
allows.
-/

namespace SessionDispatch.Daemon

variable {h : Handler} {network : Network} {crew : Nat} {c : Configuration} {now : Instant}
variable {d d₀ : Daemon}
  {ns : List Note}

/-! ## How many loops there are -/

theorem length_bound_le (network : Network) (s : Settings) (family : Family) (sockets count : Nat) :
    (bound network s family sockets count).length ≤ count := by
  have hlen := (bound_ids_sublist network s family sockets count).length_le
  rwa [List.length_map, List.length_range] at hlen

theorem length_bound_eq_iff {s : Settings} {family : Family} {sockets count : Nat} :
    (bound network s family sockets count).length = count ↔
      ∀ id < count, ∃ e, bindOutcome network s family sockets id = .ok e := by
  induction count with
  | zero => exact ⟨fun _ id hid => absurd hid (Nat.not_lt_zero id), fun _ => rfl⟩
  | succ count ih =>
      have hle := length_bound_le network s family sockets count
      rw [bound_succ, List.length_append, Nat.forall_lt_succ_right, ← ih]
      cases hbind : bindOutcome network s family sockets count with
      | error f =>
          change _ + 0 = _ ↔ _
          constructor
          · intro hall
            omega
          · rintro ⟨-, e, he⟩
            cases he
      | ok e =>
          change _ + 1 = _ ↔ _
          constructor
          · intro hall
            exact ⟨by omega, e, rfl⟩
          · rintro ⟨hall, -⟩
            omega

def missing (s : Settings) (served : List (Family × List Endpoint)) : Nat :=
  (served.map fun b => s.netio.endpointsPerFamily.toNat - b.2.length).sum

/-- A missing endpoint is two loops less. -/
theorem length_loops (s : Settings) {served : List (Family × List Endpoint)}
    (hle : ∀ b ∈ served, b.2.length ≤ s.netio.endpointsPerFamily.toNat) :
    (loops s served).length + 2 * missing s served =
      1 + served.length *
        (2 * s.netio.endpointsPerFamily.toNat + s.dispatch.dispatchersPerFamily.toNat) := by
  induction served with
  | nil => simp [loops, missing]
  | cons b rest ih =>
      obtain ⟨hfirst, hrest⟩ := List.forall_mem_cons.mp hle
      have hlen : (loops s (b :: rest)).length =
          (loops s rest).length + (s.dispatch.dispatchersPerFamily.toNat + 2 * b.2.length) := by
        simp [loops, dispatchers, endpointLoops]
        omega
      have hmissing : missing s (b :: rest) =
          (s.netio.endpointsPerFamily.toNat - b.2.length) + missing s rest := List.sum_cons
      have hih := ih hrest
      rw [hlen, hmissing, List.length_cons, Nat.add_mul]
      omega

theorem length_le_of_mem_bindings {s : Settings} {families : List Family} {sockets : Nat}
    {b : Family × List Endpoint} (hb : b ∈ bindings network s families sockets) :
    b.2.length ≤ s.netio.endpointsPerFamily.toNat := by
  obtain ⟨before, hb⟩ := exists_of_mem_bindings hb
  rw [hb]
  exact length_bound_le ..

theorem missing_bindings_eq_zero_iff {s : Settings} :
    missing s (bindings network s s.network.families 0) = 0 ↔
      ∀ (position : Nat) family, s.network.families[position]? = some family →
        ∀ id < s.netio.endpointsPerFamily.toNat, ∃ e,
          bindOutcome network s family (position * s.netio.endpointsPerFamily.toNat) id =
            .ok e := by
  unfold missing
  rw [List.sum_eq_zero_iff]
  constructor
  · intro hnone position family hfamily
    have hget := getElem?_bindings network s s.network.families 0 position
    rw [hfamily, Option.map_some, Nat.zero_add] at hget
    have hmem := List.mem_of_getElem? hget
    have hzero := hnone _ (List.mem_map_of_mem hmem)
    have hle := length_le_of_mem_bindings hmem
    exact length_bound_eq_iff.mp (by dsimp only at hzero hle; omega)
  · intro hall x hx
    obtain ⟨b, hb, rfl⟩ := List.mem_map.mp hx
    obtain ⟨position, hposition⟩ := List.getElem?_of_mem hb
    rw [getElem?_bindings, Nat.zero_add] at hposition
    obtain ⟨family, hfamily, rfl⟩ := Option.map_eq_some_iff.mp hposition
    have hlen := length_bound_eq_iff.mpr (hall position family hfamily)
    dsimp only
    omega

theorem length_bindings (network : Network) (s : Settings) (families : List Family)
    (sockets : Nat) :
    (bindings network s families sockets).length = families.length := by
  have hfamilies := congrArg List.length (map_fst_bindings network s families sockets)
  rwa [List.length_map] at hfamilies

/-- The loops of all families together with the watcher are those that are counted, apart from what
is missing. -/
theorem length_loops_bindings (hs : c.settings.Limited) :
    (loops c.settings (bindings network c.settings c.settings.network.families 0)).length + 1 +
        2 * missing c.settings (bindings network c.settings c.settings.network.families 0) =
      c.settings.longRunning.toNat := by
  have hlimit : ∀ b ∈ bindings network c.settings c.settings.network.families 0,
      b.2.length ≤ c.settings.netio.endpointsPerFamily.toNat :=
        fun b hb => length_le_of_mem_bindings hb
  have hlen := length_loops c.settings hlimit
  rw [length_bindings] at hlen
  rw [hs.toNat_longRunning]
  omega

/-! ## Room in the pool -/

theorem crewOf_eq (hs : c.settings.Limited) :
    crewOf c = c.settings.runtime.poolThreads.toNat + c.settings.longRunning.toNat := by
  have hthreads := hs.threads.1
  rw [crewOf, hs.toNat_threads]
  omega

theorem Accounted.length_live_le (hd : d.Accounted crew ns) :
    d.pool.live.length ≤ d.tasks.length + d.expiries.length := by
  have hsub : d.pool.live ⊆ d.tasks.map (·.2) ++ d.expiries.map (·.1) := by
    intro job hjob
    rcases (hd.staffed.live job).mp hjob with ⟨t, ht, -⟩ | hexpiry
    · exact List.mem_append_left _ (List.mem_map_of_mem ht)
    · exact List.mem_append_right _ hexpiry
  have hlen := (List.subperm_of_subset hd.staffed.nodup hsub).length_le
  rwa [List.length_append, List.length_map, List.length_map] at hlen

/-- Until the pool is closed it has the workers with which it was started. -/
theorem crew_le_workers {p : Pool (Except Failure Unit)} (hp : p.Healthy crew)
    (hopen : p.stopping = false) :
    crew ≤ p.workerCount ∧ crew ≤ p.workers.length := by
  rw [hp.length_workers hopen, hp.numbered hopen, hp.grown]
  exact ⟨Nat.le_add_right .., Nat.le_add_right ..⟩

/-- No loop waits for a worker as long as there are not more expiries than workers for them. -/
theorem isRunning_of_room (hd : d.Accounted crew ns) (hopen : d.pool.stopping = false)
    (hroom : d.tasks.length + d.expiries.length ≤ crew) {t : Task} (ht : t ∈ d.tasks.map (·.1))
    (hgoing : t ∉ (endings ns).map (·.1)) : d.isRunning t = true := by
  obtain ⟨⟨t, job⟩, hmem, rfl⟩ := List.mem_map.mp ht
  have hlive := (hd.staffed.live job).mpr (.inl ⟨t, hmem, hgoing⟩)
  have hworkers := (crew_le_workers hd.staffed.pool hopen).2
  have hlen := hd.length_live_le
  rw [Pool.live, hd.staffed.pool.queue_eq_nil (by omega)] at hlive
  exact hd.staffed.toManned.isRunning_iff.mpr ⟨job, hmem, hlive⟩

/-- An expiry that is handed over finds a free worker, if one was left for it. -/
theorem handOver_of_room (hd : d.Accounted crew ns) (hopen : d.pool.stopping = false)
    (hroom : d.tasks.length + d.expiries.length < crew) (e : Expiry) :
    ∃ job, (d.handOver e).expiries = d.expiries ++ [(job, e)] ∧
      (d.handOver e).isBusyWith job = true := by
  obtain ⟨hmanned, hadmitted⟩ := hd.staffed.toManned.handOver hopen e
  have hexpiries : (d.handOver e).expiries = d.expiries ++ [(d.pool.nextTask, e)] := by
    obtain ⟨growing, hsub⟩ := Pool.submit_of_open hopen
    rw [handOver_eq]
    unfold Daemon.submit
    rw [hsub]
    rfl
  refine ⟨d.pool.nextTask, hexpiries, hmanned.isBusyWith_iff.mpr ?_⟩
  have hworkers := (crew_le_workers hmanned.pool hadmitted.stopping).2
  have hlen := hadmitted.live.length_eq
  have hlive := hd.length_live_le
  rw [List.length_cons] at hlen
  have hmem : d.pool.nextTask ∈ (d.handOver e).pool.live :=
    hadmitted.live.mem_iff.mpr List.mem_cons_self
  rw [Pool.live, hmanned.pool.queue_eq_nil (by omega)] at hmem
  exact hmem

/-- One expiry more adds a worker if with it more tasks are outstanding than the threshold
allows. -/
theorem workerCount_handOver (hd : d.Accounted crew ns) (hopen : d.pool.stopping = false)
    (e : Expiry) :
    (d.handOver e).pool.workerCount =
      d.pool.workerCount + if d.pool.threshold < d.pool.outstanding + 1 then 1 else 0 :=
  (hd.staffed.toManned.handOver hopen e).2.workerCount

/-- The threshold of a pool stays as it is until the pool is closed. -/
theorem threshold_act {es : List Ending} (hs : d₀.Staffed crew es) {a : Act}
    (ha : d₀.act h a = some d) (hopen : d.pool.stopping = false) :
    d.pool.threshold = d₀.pool.threshold ∧ d₀.pool.stopping = false := by
  have hcourse := act_course ha
  generalize (d₀.note? a).bind Note.ending? = ending at hcourse
  cases hcourse with
  | goesOn hpool hexpiries hphase hreleased => exact ⟨congrArg _ hpool, hpool ▸ hopen⟩
  | tells left hpool hexpiries hbefore hafter hreleased => exact ⟨congrArg _ hpool, hpool ▸ hopen⟩
  | ends t outcome hrunning hpool hexpiries hphase hreleased =>
      obtain ⟨job, -, -, hended⟩ := hs.toManned.finishes hrunning outcome
      rw [hpool] at hopen ⊢
      exact ⟨hended.threshold, hended.stopping.symm.trans hopen⟩
  | passes hrunning hstopped heq =>
      have hbefore := hs.toReported.open_of_running hs.toManned hrunning
      rw [heq]
      exact ⟨(hs.toManned.pass hbefore).2.2.1, hbefore⟩
  | expires job hbusy hjob hpool hexpiries hphase hreleased =>
      obtain ⟨-, hended⟩ := hs.toManned.completes (hs.toManned.isBusyWith_iff.mp hbusy)
        (List.mem_append_right _ hjob) (.ok (.ok ()))
      rw [hpool] at hopen ⊢
      exact ⟨hended.threshold, hended.stopping.symm.trans hopen⟩
  | joins joined failed t job ending hphase htask hending heq =>
      obtain ⟨slots, hslots, -, -⟩ := Pool.take_eq_setSlot d₀.pool job
      rw [heq, hslots] at hopen ⊢
      exact ⟨rfl, hopen⟩
  | closes joined failed hact hphase hall heq =>
      have hbefore : d₀.pool.stopping = false := by
        rw [hs.stopping, hphase]
        rfl
      obtain ⟨-, -, -, -, -, hstopping, -⟩ := hs.pool.shutdown hbefore
      rw [heq] at hopen
      exact absurd (hopen.symm.trans hstopping) (by decide)
  | concludes joined failed threads hact hphase hgone heq =>
      rw [heq] at hopen ⊢
      exact ⟨rfl, hopen⟩

theorem threshold_run (hd₀ : d₀.Accounted crew ns) {acts : List Act} (hrun : d₀.run h acts = some d)
    (hopen : d.pool.stopping = false) : d.pool.threshold = d₀.pool.threshold := by
  induction acts using List.reverseRecOn generalizing d with
  | nil =>
      obtain rfl := Option.some.inj hrun
      rfl
  | append_singleton acts a ih =>
      obtain ⟨e, he, ha⟩ := Run.foldlM_concat_eq_some hrun
      obtain ⟨hthreshold, hbefore⟩ := threshold_act (hd₀.run he).staffed ha hopen
      exact hthreshold.trans (ih he hbefore)

/-! ## Starts -/

/-- A start launches no more loops than are counted, and the pool does not grow for them if its
threshold is higher. -/
theorem Launched.sized {served : List (Family × List Endpoint)} {last : List Task}
    (hl : Launched c now served last d) (hs : c.settings.Limited)
    (hfamilies : served.length ≤ c.settings.network.families.length)
    (hle : ∀ b ∈ served, b.2.length ≤ c.settings.netio.endpointsPerFamily.toNat)
    (hlast : last.length ≤ 1) :
    d.tasks.length ≤ c.settings.longRunning.toNat ∧ d.pool.outstanding = d.tasks.length ∧
      (c.settings.longRunning.toNat < c.settings.runtime.growthThreshold.toNat →
        d.pool.workerCount =
          c.settings.runtime.poolThreads.toNat + c.settings.longRunning.toNat) := by
  have hlen : d.tasks.length = (loops c.settings served).length + last.length := by
    rw [← List.length_map (f := (·.1)), hl.tasks, List.length_append]
  have hloops := length_loops c.settings hle
  have hcount := Nat.mul_le_mul_right
    (2 * c.settings.netio.endpointsPerFamily.toNat + c.settings.dispatch.dispatchersPerFamily.toNat)
    hfamilies
  have hall := hs.toNat_longRunning
  have htasks : d.tasks.length ≤ c.settings.longRunning.toNat := by omega
  refine ⟨htasks, ?_, fun hhigh => ?_⟩
  · rw [← hl.enlisted.pool.sound.length_live, hl.enlisted.live.length_eq, List.length_range]
  · rw [hl.enlisted.steady (by omega), crewOf_eq hs]

/-- A start that gets all its endpoints succeeds, with all the loops that are counted. -/
theorem start_of_all_bound (h : Handler) (now : Instant) (hs : c.settings.Limited)
    (hall : ∀ (position : Nat) family, c.settings.network.families[position]? = some family →
      ∀ id < c.settings.netio.endpointsPerFamily.toNat, ∃ e, bindOutcome network c.settings family
        (position * c.settings.netio.endpointsPerFamily.toNat) id = .ok e) :
    ∃ d, start h network c now = .ok d ∧ d.tasks.length = c.settings.longRunning.toNat := by
  have hsome : ∀ b ∈ bindings network c.settings c.settings.network.families 0, b.2 ≠ [] := by
    refine bindings_all_iff.mpr fun position family hfamily => ?_
    exact ⟨0, hs.endpoints.1, hall position family hfamily 0 hs.endpoints.1⟩
  obtain ⟨d, hstart⟩ := (start_ok_iff h now hs.families).mpr hsome
  have hspec := start_spec h network c now
  rw [hstart] at hspec
  have htasks : d.tasks.length =
      (loops c.settings (bindings network c.settings c.settings.network.families 0)).length +
        1 := by
    rw [← List.length_map (f := (·.1)), hspec.2.2.tasks, List.length_append]
    rfl
  have hcount :
      (loops c.settings (bindings network c.settings c.settings.network.families 0)).length + 1 +
      2 * missing c.settings (bindings network c.settings c.settings.network.families 0) =
        c.settings.longRunning.toNat := length_loops_bindings hs
  rw [missing_bindings_eq_zero_iff.mpr hall] at hcount
  exact ⟨d, hstart, htasks.trans hcount⟩

/-- While the pool of a daemon is open it has workers for all loops that are counted and for short
tasks besides. No loop that goes on waits for a worker, nor does an expiry that is handed over,
unless more expiries are outstanding than there are threads for short tasks. -/
structure Roomy (s : Settings) (d : Daemon) (es : List Ending) : Prop where
  workers : s.runtime.poolThreads.toNat + s.longRunning.toNat ≤ d.pool.workerCount
  loops : d.expiries.length ≤ s.runtime.poolThreads.toNat →
    ∀ t ∈ d.tasks.map (·.1), t ∉ es.map (·.1) →
    d.isRunning t = true
  expiry : d.expiries.length < s.runtime.poolThreads.toNat → ∀ e, ∃ job,
    (d.handOver e).expiries = d.expiries ++ [(job, e)] ∧ (d.handOver e).isBusyWith job = true

theorem Accounted.roomy (hd : d.Accounted (crewOf c) ns) (hs : c.settings.Limited)
    (hopen : d.pool.stopping = false) (htasks : d.tasks.length ≤ c.settings.longRunning.toNat) :
    Roomy c.settings d (endings ns) := by
  have hcrew := crewOf_eq hs
  refine ⟨?_, fun hroom t ht hgoing => ?_, fun hroom e => ?_⟩
  · rw [← hcrew]
    exact (crew_le_workers hd.staffed.pool hopen).1
  · exact isRunning_of_room hd hopen (by omega) ht hgoing
  · exact handOver_of_room hd hopen (by omega) e

/-- With valid settings nothing wraps around in the counts. If every endpoint can be bound the loops
that are started are as many as are counted, and otherwise they are not more. While the pool is open
there is room in it for every loop and for expiries. A warning is given if and only if, with as many
tasks outstanding as loops are counted, one expiry more adds a worker, and without the warning
neither a start nor a single expiry adds one. -/
theorem pool_fits_loops (hvalid : c.settings.check.errors = []) (h : Handler) (network : Network)
    (now : Instant) :
    let s := c.settings
    let endpoints := s.netio.endpointsPerFamily.toNat
    let threads := s.runtime.poolThreads.toNat
    let count := s.longRunning.toNat
    let eager := Warning.eagerGrowth s.runtime.growthThreshold s.longRunning ∈ s.check.warnings
    (count =
          s.network.families.length * (2 * endpoints + s.dispatch.dispatchersPerFamily.toNat) + 2 ∧
        count ≤ 1538 ∧ (s.netio.endpointsPerFamily * 4).toNat = endpoints * 4 ∧
        (s.runtime.poolThreads + s.longRunning).toNat = threads + count ∧
        1 ≤ threads ∧ threads ≤ 1024) ∧
      ((∀ (position : Nat) family, s.network.families[position]? = some family →
        ∀ id < endpoints, ∃ e,
          bindOutcome network s family (position * endpoints) id = .ok e) →
        ∃ d, start h network c now = .ok d ∧ d.tasks.length = count) ∧
      (∀ d₀, start h network c now = .ok d₀ →
        (d₀.tasks.length ≤ count ∧ d₀.pool.outstanding = d₀.tasks.length ∧
          (¬ eager → d₀.pool.workerCount = threads + count)) ∧
        ∀ acts d, d₀.run h acts = some d → d.pool.stopping = false →
          Roomy s d (endings (d₀.notes h acts)) ∧
          ∀ e, (d.pool.outstanding = count →
            ((d.handOver e).pool.workerCount = d.pool.workerCount + 1 ↔ eager)) ∧
            (d.pool.outstanding ≤ count → ¬ eager →
              (d.handOver e).pool.workerCount = d.pool.workerCount)) ∧
      ∀ reason left, start h network c now = .error (reason, left) → ∃ launched : Daemon,
        left = some (launched.shutdown h network) ∧ launched.tasks.length ≤ count ∧
          (¬ eager → launched.pool.workerCount = threads + count) := by
  intro s endpoints threads count eager
  have hs := Settings.limited_of_valid hvalid
  have heager : eager ↔ s.runtime.growthThreshold.toNat ≤ count :=
    Settings.eagerGrowth_mem_iff hvalid
  have hlimit : ∀ b ∈ bindings network s s.network.families 0, b.2.length ≤ endpoints :=
    fun b hb => length_le_of_mem_bindings hb
  have hfamilies : (bindings network s s.network.families 0).length = s.network.families.length :=
    length_bindings ..
  refine ⟨⟨hs.toNat_longRunning, hs.toNat_longRunning_le, hs.toNat_idleLimit, hs.toNat_threads,
    hs.threads⟩,
    fun hall => ?_, fun d₀ hstart => ?_, fun reason left hstart => ?_⟩
  · exact start_of_all_bound h now hs hall
  · have hspec := start_spec h network c now
    rw [hstart] at hspec
    obtain ⟨-, -, hlaunched⟩ := hspec
    obtain ⟨hd₀, hup⟩ := started hstart
    obtain ⟨htasks, hout, hsteady⟩ := hlaunched.sized hs hfamilies.le hlimit (Nat.le_refl 1)
    refine ⟨⟨htasks, hout,
      fun hquiet => hsteady (Nat.lt_of_not_le fun hle => hquiet (heager.mpr hle))⟩, ?_⟩
    intro acts d hrun hopen
    have hd := hd₀.run hrun
    have hthreshold : d.pool.threshold = s.runtime.growthThreshold.toNat :=
      (threshold_run hd₀ hrun hopen).trans hlaunched.enlisted.limit
    refine ⟨hd.roomy hs hopen ?_, fun e => ?_⟩
    · rw [(run_frame hrun).1]
      exact htasks
    · rw [workerCount_handOver hd hopen e, hthreshold, heager]
      constructor
      · intro hfull
        rw [hfull]
        split_ifs <;> omega
      · intro hfull hquiet
        rw [if_neg (by omega)]
        rfl
  · obtain ⟨before, family, after, launched, hsplit, -, -, hlaunched, -, hleft⟩ :=
      start_error hs.families hstart
    have hsub : (before ++ [(family, [])]).Sublist (bindings network s s.network.families 0) := by
      rw [hsplit]
      exact (List.singleton_sublist.mpr List.mem_cons_self).append_left before
    obtain ⟨htasks, -, hsteady⟩ := hlaunched.sized hs (hsub.length_le.trans hfamilies.le)
      (fun b hb => hlimit b (hsub.mem hb)) (Nat.zero_le 1)
    exact ⟨launched, hleft, htasks,
      fun hquiet => hsteady (Nat.lt_of_not_le fun hle => hquiet (heager.mpr hle))⟩

/-- One family with one endpoint, and a threshold that its five loops reach. -/
def tightPool : Configuration where
  settings := {
    network := { enableIpv6 := false }
    netio := { endpointsPerFamily := 1 }
    dispatch := { dispatchersPerFamily := 1 }
    runtime := { poolThreads := 1, growthThreshold := 5 } }

/-- There is room for an expiry, and yet it adds a worker, as the warning says. -/
theorem pool_fits_loops_tightPool : tightPool.settings.check.errors = [] ∧
    ∃ d, start .silent .unlimited tightPool 0 = .ok d ∧ d.tasks.length = 5 ∧
      d.pool.workerCount = 6 ∧
      Warning.eagerGrowth 5 5 ∈ tightPool.settings.check.warnings ∧
      (∀ t ∈ d.tasks.map (·.1), d.isRunning t = true) ∧
      ∀ e, (d.handOver e).pool.workerCount = 7 ∧
        ∃ job, (d.handOver e).expiries = [(job, e)] ∧ (d.handOver e).isBusyWith job = true := by
  have hvalid : tightPool.settings.check.errors = [] := by cbv
  refine ⟨hvalid, ?_⟩
  have hwarned : Warning.eagerGrowth 5 5 ∈ tightPool.settings.check.warnings := by decide +kernel
  have hstarted : (start .silent .unlimited tightPool 0).toOption.map (fun d =>
      (d.tasks.length, d.pool.workerCount, d.pool.outstanding, d.pool.stopping,
        d.expiries.length)) =
        some (5, 6, 5, false, 0) := by decide +kernel
  obtain ⟨-, -, hpool, -⟩ := pool_fits_loops hvalid .silent .unlimited 0
  cases hstart : start .silent .unlimited tightPool 0 with
  | error failed =>
      rw [hstart] at hstarted
      cases hstarted
  | ok d =>
      rw [hstart] at hstarted
      simp only [Except.toOption, Option.map_some, Option.some.injEq, Prod.mk.injEq] at hstarted
      obtain ⟨htasks, hworkers, hout, hopen, hlength⟩ := hstarted
      have hnone := List.eq_nil_of_length_eq_zero hlength
      obtain ⟨-, hreached⟩ := hpool d hstart
      obtain ⟨⟨-, hloops, hexpiry⟩, hgrows⟩ := hreached [] d rfl hopen
      refine ⟨d, rfl, htasks, hworkers, hwarned, fun t ht => ?_, fun e => ⟨?_, ?_⟩⟩
      · exact hloops (by rw [hnone]; exact Nat.zero_le _) t ht List.not_mem_nil
      · rw [((hgrows e).1 hout).mpr hwarned, hworkers]
      · obtain ⟨job, hexpiries, hbusy⟩ := hexpiry (by rw [hnone]; decide) e
        rw [hnone] at hexpiries
        exact ⟨job, hexpiries, hbusy⟩

end SessionDispatch.Daemon
