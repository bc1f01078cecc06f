import SessionDispatch.Proofs.Daemon.Launching
import SessionDispatch.Proofs.Daemon.Notes

/-!
# Loops and their threads

The live tasks of the pool are the loops that have not ended and the expiries that were handed over.
The handle of a loop that was not waited for yet has its outcome if it ended, and what a shutdown
has found so far is how the loops ended that it waited for.
-/

namespace SessionDispatch.Daemon

theorem lookup_eq_some_iff_mem {α β : Type} [DecidableEq α] {l : List (α × β)}
    (hl : (l.map (·.1)).Nodup) {a : α} {b : β} : l.lookup a = some b ↔ (a, b) ∈ l := by
  constructor
  · intro h
    obtain ⟨l₁, l₂, rfl, -⟩ := List.lookup_eq_some_iff.mp h
    exact List.mem_append_right _ List.mem_cons_self
  · intro h
    obtain ⟨l₁, l₂, rfl⟩ := List.append_of_mem h
    refine List.lookup_eq_some_iff.mpr ⟨l₁, l₂, rfl, fun x hx => ?_⟩
    rw [List.map_append, List.map_cons, List.nodup_append] at hl
    have hne := hl.2.2 x.1 (List.mem_map_of_mem hx) a List.mem_cons_self
    simpa using hne.symm

/-- The pool works on the loops that have not ended and on the expiries that were handed over. -/
structure Manned (crew : Nat) (d : Daemon) (es : List Ending) : Prop where
  pool : d.pool.Healthy crew
  names : (d.tasks.map (·.1)).Nodup
  jobs : (d.tasks.map (·.2) ++ d.expiries.map (·.1)).Nodup
  known : ∀ job ∈ d.tasks.map (·.2) ++ d.expiries.map (·.1), job < d.pool.nextTask
  once : (es.map (·.1)).Nodup
  loops : ∀ t ∈ es.map (·.1), t ∈ d.tasks.map (·.1)
  nodup : d.pool.live.Nodup
  live : ∀ job, job ∈ d.pool.live ↔
    (∃ t, (t, job) ∈ d.tasks ∧ t ∉ es.map (·.1)) ∨ job ∈ d.expiries.map (·.1)

namespace Manned

variable {crew : Nat} {d d' : Daemon} {es : List Ending} {t : Task} {job : Nat}

theorem isBusyWith_iff (hd : d.Manned crew es) : d.isBusyWith job = true ↔ job ∈ d.pool.held := by
  unfold isBusyWith
  rw [List.any_eq_true, hd.pool.mem_held_iff]
  constructor
  · rintro ⟨⟨w, work⟩, hw, hrunning⟩
    obtain rfl : work = .running job := of_decide_eq_true hrunning
    exact ⟨w, hw⟩
  · rintro ⟨w, hw⟩
    exact ⟨_, hw, decide_eq_true rfl⟩

theorem isRunning_iff (hd : d.Manned crew es) :
    d.isRunning t = true ↔ ∃ job, (t, job) ∈ d.tasks ∧ job ∈ d.pool.held := by
  unfold isRunning jobOf?
  rw [Option.any_eq_true]
  constructor
  · rintro ⟨job, hjob, hbusy⟩
    exact ⟨job, (lookup_eq_some_iff_mem hd.names).mp hjob, hd.isBusyWith_iff.mp hbusy⟩
  · rintro ⟨job, hjob, hbusy⟩
    exact ⟨job, (lookup_eq_some_iff_mem hd.names).mpr hjob, hd.isBusyWith_iff.mpr hbusy⟩

theorem task_eq (hd : d.Manned crew es) {t' : Task} (ht : (t, job) ∈ d.tasks)
    (ht' : (t', job) ∈ d.tasks) :
    t = t' := by
  have hjobs := (List.nodup_append.mp hd.jobs).1
  exact congrArg Prod.fst (List.inj_on_of_nodup_map hjobs ht ht' rfl)

theorem job_eq (hd : d.Manned crew es) {job' : Nat} (ht : (t, job) ∈ d.tasks)
    (ht' : (t, job') ∈ d.tasks) :
    job = job' :=
  congrArg Prod.snd (List.inj_on_of_nodup_map hd.names ht ht' rfl)

theorem not_expiry (hd : d.Manned crew es) (ht : (t, job) ∈ d.tasks) :
    job ∉ d.expiries.map (·.1) := by
  intro hexpiry
  have hne := (List.nodup_append.mp hd.jobs).2.2 job (List.mem_map_of_mem ht) job hexpiry
  exact hne rfl

theorem not_ended_of_live (hd : d.Manned crew es) (ht : (t, job) ∈ d.tasks)
    (hl : job ∈ d.pool.live) :
    t ∉ es.map (·.1) := by
  rcases (hd.live job).mp hl with ⟨t', ht', hended⟩ | hexpiry
  · rw [hd.task_eq ht ht']
    exact hended
  · exact absurd hexpiry (hd.not_expiry ht)

theorem not_ended (hd : d.Manned crew es) (hrunning : d.isRunning t = true) : t ∉ es.map (·.1) := by
  obtain ⟨job, ht, hheld⟩ := hd.isRunning_iff.mp hrunning
  exact hd.not_ended_of_live ht (List.mem_append_right _ hheld)

/-- A task that a worker is busy with comes to its end. -/
theorem completes (hd : d.Manned crew es) (hheld : job ∈ d.pool.held)
    (hknown : job ∈ d.tasks.map (·.2) ++ d.expiries.map (·.1))
    (outcome : Pool.Outcome (Except Failure Unit)) :
    (d.complete job outcome).pool.Healthy crew ∧
      d.pool.Ended (d.complete job outcome).pool job outcome := by
  have hkey : job ∈ d.pool.slots.map (·.1) := by
    rw [hd.pool.keys]
    exact List.mem_range.mpr (hd.known job hknown)
  obtain ⟨q, hq, hhealthy, hended⟩ := hd.pool.finishTask hheld hkey outcome
  unfold complete
  rw [hq]
  exact ⟨hhealthy, hended⟩

/-- A loop that runs comes to its end. -/
theorem finishes (hd : d.Manned crew es) (hrunning : d.isRunning t = true)
    (outcome : Pool.Outcome (Except Failure Unit)) :
    ∃ job, (t, job) ∈ d.tasks ∧ (d.finish t outcome).pool.Healthy crew ∧
      d.pool.Ended (d.finish t outcome).pool job outcome := by
  obtain ⟨job, ht, hheld⟩ := hd.isRunning_iff.mp hrunning
  have hjob : d.jobOf? t = some job := (lookup_eq_some_iff_mem hd.names).mpr ht
  have hfinish : d.finish t outcome = d.complete job outcome := by
    rw [finish, hjob]
    rfl
  rw [hfinish]
  exact ⟨job, ht, hd.completes hheld (List.mem_append_left _ (List.mem_map_of_mem ht)) outcome⟩

theorem mem_live_iff_of_ended {p q : Pool (Except Failure Unit)}
    {outcome : Pool.Outcome (Except Failure Unit)} (hp : p.live.Nodup)
    (he : p.Ended q job outcome) :
    q.live.Nodup ∧ ∀ other, other ∈ q.live ↔ other ∈ p.live ∧ other ≠ job := by
  have hnodup := he.live.nodup_iff.mp hp
  obtain ⟨hnot, hq⟩ := List.nodup_cons.mp hnodup
  refine ⟨hq, fun other => ?_⟩
  rw [he.live.mem_iff, List.mem_cons]
  constructor
  · intro hother
    exact ⟨.inr hother, fun hsame => hnot (hsame ▸ hother)⟩
  · rintro ⟨hsame | hother, hne⟩
    · exact absurd hsame hne
    · exact hother

/-! ## What an act does to it -/

theorem goesOn (hd : d.Manned crew es) (hpool : d'.pool = d.pool) (htasks : d'.tasks = d.tasks)
    (hexpiries : d'.expiries = d.expiries) : d'.Manned crew es where
  pool := hpool ▸ hd.pool
  names := htasks ▸ hd.names
  jobs := by rw [htasks, hexpiries]; exact hd.jobs
  known := by rw [htasks, hexpiries, hpool]; exact hd.known
  once := hd.once
  loops := htasks ▸ hd.loops
  nodup := hpool ▸ hd.nodup
  live := by rw [htasks, hexpiries, hpool]; exact hd.live

theorem ends (hd : d.Manned crew es) (hrunning : d.isRunning t = true)
    {outcome : Pool.Outcome (Except Failure Unit)} (hpool : d'.pool = (d.finish t outcome).pool)
    (htasks : d'.tasks = d.tasks) (hexpiries : d'.expiries = d.expiries) :
    d'.Manned crew (es ++ [(t, outcome)]) := by
  obtain ⟨job, ht, hhealthy, hended⟩ := hd.finishes hrunning outcome
  rw [← hpool] at hhealthy hended
  obtain ⟨hnodup, hlive⟩ := mem_live_iff_of_ended hd.nodup hended
  have hmem : ∀ u, u ∈ (es ++ [(t, outcome)]).map (·.1) ↔ u ∈ es.map (·.1) ∨ u = t := by simp
  refine ⟨hhealthy, htasks ▸ hd.names, ?_, ?_, ?_, ?_, hnodup, ?_⟩
  · rw [htasks, hexpiries]
    exact hd.jobs
  · rw [htasks, hexpiries, hended.nextTask]
    exact hd.known
  · rw [List.map_append, List.nodup_append]
    refine ⟨hd.once, List.nodup_singleton _, ?_⟩
    intro u hu v hv hsame
    obtain rfl : v = t := List.mem_singleton.mp hv
    exact hd.not_ended hrunning (hsame ▸ hu)
  · intro u hu
    rw [htasks]
    rcases (hmem u).mp hu with hu | rfl
    · exact hd.loops u hu
    · exact List.mem_map_of_mem ht
  · intro other
    rw [hlive, hd.live, htasks, hexpiries]
    constructor
    · rintro ⟨⟨u, hu, hopen⟩ | hexpiry, hne⟩
      · refine .inl ⟨u, hu, fun hended' => ?_⟩
        rcases (hmem u).mp hended' with hended' | rfl
        · exact hopen hended'
        · exact hne (hd.job_eq hu ht)
      · exact .inr hexpiry
    · rintro (⟨u, hu, hopen⟩ | hexpiry)
      · refine ⟨.inl ⟨u, hu, fun hended' => hopen ((hmem u).mpr (.inl hended'))⟩, ?_⟩
        rintro rfl
        exact hopen ((hmem u).mpr (.inr (hd.task_eq hu ht)))
      · refine ⟨.inr hexpiry, ?_⟩
        rintro rfl
        exact hd.not_expiry ht hexpiry

theorem expires (hd : d.Manned crew es) (hbusy : d.isBusyWith job = true)
    (hjob : job ∈ d.expiries.map (·.1)) (hpool : d'.pool = (d.complete job (.ok (.ok ()))).pool)
    (htasks : d'.tasks = d.tasks) (hexpiries : d'.expiries = d.expiries.filter (·.1 ≠ job)) :
    d'.Manned crew es := by
  obtain ⟨hhealthy, hended⟩ :=
    hd.completes (hd.isBusyWith_iff.mp hbusy) (List.mem_append_right _ hjob) (.ok (.ok ()))
  rw [← hpool] at hhealthy hended
  obtain ⟨hnodup, hlive⟩ := mem_live_iff_of_ended hd.nodup hended
  have hsub : (d'.expiries.map (·.1)).Sublist (d.expiries.map (·.1)) := by
    rw [hexpiries]
    exact List.filter_sublist.map _
  have hmem : ∀ other, other ∈ d'.expiries.map (·.1) ↔ other ∈ d.expiries.map (·.1) ∧
      other ≠ job := by
    intro other
    rw [hexpiries]
    simp only [List.mem_map, List.mem_filter, decide_eq_true_eq]
    constructor
    · rintro ⟨e, ⟨he, hne⟩, rfl⟩
      exact ⟨⟨e, he, rfl⟩, hne⟩
    · rintro ⟨⟨e, he, rfl⟩, hne⟩
      exact ⟨e, ⟨he, hne⟩, rfl⟩
  refine ⟨hhealthy, htasks ▸ hd.names, ?_, ?_, hd.once, htasks ▸ hd.loops, hnodup, ?_⟩
  · rw [htasks]
    exact hd.jobs.sublist (hsub.append_left _)
  · rw [htasks, hended.nextTask]
    exact fun other hother => hd.known other ((hsub.append_left _).mem hother)
  · intro other
    rw [hlive, hd.live, htasks, hmem]
    constructor
    · rintro ⟨hopen | hexpiry, hne⟩
      · exact .inl hopen
      · exact .inr ⟨hexpiry, hne⟩
    · rintro (⟨u, hu, hopen⟩ | ⟨hexpiry, hne⟩)
      · refine ⟨.inl ⟨u, hu, hopen⟩, ?_⟩
        rintro rfl
        exact hd.not_expiry hu hjob
      · exact ⟨.inr hexpiry, hne⟩

theorem handOver (hd : d.Manned crew es) (hopen : d.pool.stopping = false) (e : Expiry) :
    (d.handOver e).Manned crew es ∧ d.pool.Admitted (d.handOver e).pool := by
  obtain ⟨growing, hsub⟩ := Pool.submit_of_open hopen
  have hhealthy := hd.pool.submit hopen
  have hadm := hd.pool.toSettled.admitted hopen
  have hpool : (d.handOver e).pool = d.pool.submit.2.settle fun _ _ => none := by
    rw [handOver_eq]
    rfl
  have hexpiries : (d.handOver e).expiries = d.expiries ++ [(d.pool.nextTask, e)] := by
    rw [handOver_eq]
    unfold Daemon.submit
    rw [hsub]
    rfl
  have htasks : (d.handOver e).tasks = d.tasks := by rw [handOver_eq]
  rw [← hpool] at hhealthy hadm
  have hfresh : d.pool.nextTask ∉ d.tasks.map (·.2) ++ d.expiries.map (·.1) :=
    fun hmem => Nat.lt_irrefl _ (hd.known _ hmem)
  have hjobs : d.tasks.map (·.2) ++ (d.expiries ++ [(d.pool.nextTask, e)]).map (·.1) =
      (d.tasks.map (·.2) ++ d.expiries.map (·.1)) ++ [d.pool.nextTask] := by simp
  refine ⟨⟨hhealthy, htasks ▸ hd.names, ?_, ?_, hd.once, htasks ▸ hd.loops, ?_, ?_⟩, hadm⟩
  · rw [htasks, hexpiries, hjobs, List.nodup_append]
    refine ⟨hd.jobs, List.nodup_singleton _, fun job hjob new hnew => ?_⟩
    rw [List.mem_singleton.mp hnew]
    exact fun hsame => hfresh (hsame ▸ hjob)
  · rw [htasks, hexpiries, hjobs, hadm.nextTask]
    intro job hjob
    rcases List.mem_append.mp hjob with hjob | hjob
    · exact Nat.lt_succ_of_lt (hd.known job hjob)
    · rw [List.mem_singleton.mp hjob]
      exact Nat.lt_succ_self _
  · rw [hadm.live.nodup_iff, List.nodup_cons]
    refine ⟨fun hlive => hfresh ?_, hd.nodup⟩
    rcases (hd.live _).mp hlive with ⟨t, ht, -⟩ | hexpiry
    · exact List.mem_append_left _ (List.mem_map_of_mem ht)
    · exact List.mem_append_right _ hexpiry
  · intro job
    rw [hadm.live.mem_iff, List.mem_cons, hd.live, htasks, hexpiries, List.map_append,
      List.mem_append]
    simp only [List.map_cons, List.map_nil, List.mem_singleton]
    exact or_comm.trans or_assoc

/-- A pass hands over the expiries that are due, and nothing else comes to the pool. -/
theorem pass (hd : d.Manned crew es) (hopen : d.pool.stopping = false) :
    d.pass.Manned crew es ∧ d.pass.pool.stopping = false ∧
      d.pass.pool.threshold = d.pool.threshold ∧
      ∀ job, d.pass.pool.slot job = d.pool.slot job := by
  have hfold : ∀ (due : List (Timer.Event Expiry)) (e : Daemon), e.Manned crew es →
      e.pool.stopping = false →
      e.pool.threshold = d.pool.threshold → (∀ job, e.pool.slot job = d.pool.slot job) →
        let after := due.foldl (fun d event => d.handOver event.action) e
        after.Manned crew es ∧ after.pool.stopping = false ∧
          after.pool.threshold = d.pool.threshold ∧
          ∀ job, after.pool.slot job = d.pool.slot job := by
    intro due
    induction due with
    | nil => exact fun e he hopen hthreshold hslot => ⟨he, hopen, hthreshold, hslot⟩
    | cons event due ih =>
        intro e he hopen hthreshold hslot
        obtain ⟨he', hadm⟩ := he.handOver hopen event.action
        exact ih (e.handOver event.action) he' hadm.stopping
          (hadm.threshold.trans hthreshold) fun job =>
          (hadm.slot job).trans (hslot job)
  exact hfold _ { d with timer := (d.timer.pass d.now).2 }
    (hd.goesOn rfl rfl rfl) hopen rfl fun _ => rfl

theorem joins (hd : d.Manned crew es) (job : Nat) (hpool : d'.pool = (d.pool.take job).2)
    (htasks : d'.tasks = d.tasks) (hexpiries : d'.expiries = d.expiries) : d'.Manned crew es := by
  have hhealthy := hd.pool.take job
  obtain ⟨slots, hslots, -, -⟩ := Pool.take_eq_setSlot d.pool job
  have hlive : d'.pool.live = d.pool.live := by
    rw [hpool, hslots]
    rfl
  have hnext : d'.pool.nextTask = d.pool.nextTask := by rw [hpool, hslots]
  rw [← hpool] at hhealthy
  refine ⟨hhealthy, htasks ▸ hd.names, ?_, ?_, hd.once, htasks ▸ hd.loops, hlive ▸ hd.nodup, ?_⟩
  · rw [htasks, hexpiries]
    exact hd.jobs
  · rw [htasks, hexpiries, hnext]
    exact hd.known
  · rw [htasks, hexpiries, hlive]
    exact hd.live

/-- The pool keeps what it works on when it is closed. -/
theorem closes (hd : d.Manned crew es) (hopen : d.pool.stopping = false) {joined : Nat}
    {failed : List (Task × Failure)} : (d.closePool joined failed).Manned crew es := by
  obtain ⟨-, hhealthy, hlive, -, hnext, -, -⟩ := hd.pool.shutdown hopen
  refine ⟨hhealthy, hd.names, hd.jobs, ?_, hd.once, hd.loops, hlive.nodup_iff.mpr hd.nodup,
    fun job => ?_⟩
  · intro job hjob
    exact Nat.lt_of_lt_of_eq (hd.known job hjob) hnext.symm
  · exact hlive.mem_iff.trans (hd.live job)

end Manned

/-! ## What a shutdown has found -/

def failure? (es : List Ending) (e : Task × Nat) : Option (Task × Failure) :=
  ((es.lookup e.1).bind fun outcome => failureOf outcome.deliver).map (e.1, ·)

/-- What is known of the loops that were waited for, what the handles of the others hold, and when
the threads and the handler have gone. -/
structure Reported (d : Daemon) (es : List Ending) : Prop where
  slots : ∀ e ∈ d.tasks.drop d.phase.standing.joined,
    d.pool.slot e.2 = (es.lookup e.1).elim {} fun outcome => ⟨some outcome, true⟩
  joined : ∀ e ∈ d.tasks.take d.phase.standing.joined, e.1 ∈ es.map (·.1)
  failed : d.phase.standing.failed = (d.tasks.take d.phase.standing.joined).filterMap (failure? es)
  le : d.phase.standing.joined ≤ d.tasks.length
  stopping : d.pool.stopping = d.phase.standing.threads.isSome
  threads : ∀ n, d.phase.standing.threads = some n → n = d.pool.nextWorker ∧
    d.phase.standing.joined = d.tasks.length
  down : d.phase.standing.down = true → d.phase.standing.threads.isSome = true ∧ d.pool.workers = []
  released : d.released = if d.phase.standing.down then 1 else 0

namespace Reported

variable {crew : Nat} {d d' : Daemon} {es : List Ending} {t : Task} {job : Nat}

theorem lookup_concat (outcome : Pool.Outcome (Except Failure Unit)) (ht : t ∉ es.map (·.1))
    (u : Task) :
    (es ++ [(t, outcome)]).lookup u = if u = t then some outcome else es.lookup u := by
  have hnone : es.lookup t = none := by
    refine List.lookup_eq_none_iff.mpr fun e he => ?_
    have hne : e.1 ≠ t := fun hsame => ht (hsame ▸ List.mem_map_of_mem he)
    simpa using hne.symm
  rw [List.lookup_append]
  split_ifs with hu
  · subst hu
    rw [hnone]
    simp
  · have hne : (u == t) = false := by simpa using hu
    rw [List.lookup_cons, hne]
    cases es.lookup u <;> rfl

/-- While a loop runs the pool is open. -/
theorem open_of_running (hr : d.Reported es) (hd : d.Manned crew es)
    (hrunning : d.isRunning t = true) :
    d.pool.stopping = false := by
  rw [hr.stopping]
  cases hthreads : d.phase.standing.threads with
  | none => rfl
  | some n =>
      obtain ⟨job, ht, -⟩ := hd.isRunning_iff.mp hrunning
      have hall := (hr.threads n hthreads).2
      have hended := hr.joined (t, job) (by rw [hall, List.take_length]; exact ht)
      exact absurd hended (hd.not_ended hrunning)

theorem goesOn (hr : d.Reported es) (htasks : d'.tasks = d.tasks)
    (hstanding : d'.phase.standing = d.phase.standing) (hreleased : d'.released = d.released)
    (hslot : ∀ e ∈ d.tasks, d'.pool.slot e.2 = d.pool.slot e.2)
    (hstopping : d'.pool.stopping = d.pool.stopping)
    (hnext : d.pool.stopping = true → d'.pool.nextWorker = d.pool.nextWorker)
    (hworkers : d.pool.workers = [] → d'.pool.workers = []) : d'.Reported es where
  slots := by
    intro e he
    rw [hstanding, htasks] at he
    rw [hslot e (List.mem_of_mem_drop he)]
    exact hr.slots e he
  joined := by rw [hstanding, htasks]; exact hr.joined
  failed := by rw [hstanding, htasks]; exact hr.failed
  le := by rw [hstanding, htasks]; exact hr.le
  stopping := by rw [hstanding, hstopping]; exact hr.stopping
  threads := by
    intro n hn
    rw [hstanding] at hn ⊢
    have hstop : d.pool.stopping = true := by rw [hr.stopping, hn]; rfl
    rw [htasks, hnext hstop]
    exact hr.threads n hn
  down := by
    rw [hstanding]
    exact fun hdown => ⟨(hr.down hdown).1, hworkers (hr.down hdown).2⟩
  released := by rw [hstanding, hreleased]; exact hr.released

theorem ends (hr : d.Reported es) (hd : d.Manned crew es) (hrunning : d.isRunning t = true)
    {outcome : Pool.Outcome (Except Failure Unit)} (hpool : d'.pool = (d.finish t outcome).pool)
    (htasks : d'.tasks = d.tasks) (hphase : d'.phase = d.phase)
    (hreleased : d'.released = d.released) :
    d'.Reported (es ++ [(t, outcome)]) := by
  obtain ⟨job, ht, -, hended⟩ := hd.finishes hrunning outcome
  rw [← hpool] at hended
  have hopen := hr.open_of_running hd hrunning
  have hthreads : d.phase.standing.threads = none := by
    have hsome := hr.stopping
    rw [hopen] at hsome
    exact Option.isNone_iff_eq_none.mp (Option.isSome_eq_false_iff.mp hsome.symm)
  have hnew := hd.not_ended hrunning
  have hlookup := lookup_concat outcome hnew
  refine ⟨?_, ?_, ?_, ?_, ?_, ?_, ?_, ?_⟩
  · intro e he
    rw [hphase, htasks] at he
    have hmem := List.mem_of_mem_drop he
    rw [hended.slot, hlookup]
    by_cases hsame : e.1 = t
    · have hjob : e.2 = job := hd.job_eq (hsame ▸ hmem) ht
      rw [if_pos hsame, if_pos hjob]
      rfl
    · have hjob : e.2 ≠ job := fun hjob => hsame (hd.task_eq (hjob ▸ hmem) ht)
      rw [if_neg hsame, if_neg hjob]
      exact hr.slots e he
  · rw [hphase, htasks]
    intro e he
    rw [List.map_append]
    exact List.mem_append_left _ (hr.joined e he)
  · rw [hphase, htasks, hr.failed]
    refine List.filterMap_congr fun e he => ?_
    have hne : e.1 ≠ t := fun hsame => hnew (hsame ▸ hr.joined e he)
    rw [failure?, failure?, hlookup, if_neg hne]
  · rw [hphase, htasks]
    exact hr.le
  · rw [hphase, hended.stopping]
    exact hr.stopping
  · intro n hn
    rw [hphase, hthreads] at hn
    cases hn
  · intro hdown
    rw [hphase] at hdown
    have hsome := (hr.down hdown).1
    rw [hthreads] at hsome
    cases hsome
  · rw [hphase, hreleased]
    exact hr.released

/-- The handle of the next loop tells how it ended. -/
theorem joins (hr : d.Reported es) (hd : d.Manned crew es) {joined : Nat}
    {failed : List (Task × Failure)} {ending : Except Failure (Except Failure Unit)}
    (hphase : d.phase = .joining joined failed) (htask : d.tasks[joined]? = some (t, job))
    (hending : (d.pool.take job).1 = some ending) :
    Reported { d with
      pool := (d.pool.take job).2
      phase := .joining (joined + 1) (failed ++ ((failureOf ending).map (t, ·)).toList) } es := by
  have hstanding : d.phase.standing = ⟨joined, failed, none, false⟩ := by rw [hphase]; rfl
  obtain ⟨hlt, hget⟩ := List.getElem?_eq_some_iff.mp htask
  have hdrop : d.tasks.drop joined = (t, job) :: d.tasks.drop (joined + 1) := by
    rw [List.drop_eq_getElem_cons hlt, hget]
  have htake : d.tasks.take (joined + 1) = d.tasks.take joined ++ [(t, job)] := by
    rw [List.take_add_one, htask]
    rfl
  have hmem : (t, job) ∈ d.tasks := List.mem_of_getElem? htask
  have hslot := hr.slots (t, job)
  rw [hstanding] at hslot
  replace hslot := hslot (hdrop ▸ List.mem_cons_self)
  obtain ⟨outcome, hlookup, rfl⟩ : ∃ outcome, es.lookup t = some outcome ∧
      ending = outcome.deliver := by
    unfold Pool.take at hending
    cases hl : es.lookup t with
    | none =>
        rw [hl] at hslot
        simp [hslot] at hending
    | some outcome =>
        rw [hl] at hslot
        simp only [hslot, Option.elim_some, Option.some.injEq] at hending
        exact ⟨outcome, rfl, hending.symm⟩
  have hended : t ∈ es.map (·.1) :=
    List.mem_map_of_mem ((lookup_eq_some_iff_mem hd.once).mp hlookup)
  obtain ⟨slots, hslots, -, hothers⟩ := Pool.take_eq_setSlot d.pool job
  refine ⟨?_, ?_, ?_, hlt, ?_, nofun, nofun, ?_⟩
  · intro e he
    have he : e ∈ d.tasks.drop (joined + 1) := he
    have hne : e.2 ≠ job := by
      intro hsame
      have hnodup :=
        ((List.nodup_append.mp hd.jobs).1).sublist ((List.drop_sublist joined d.tasks).map (·.2))
      rw [hdrop, List.map_cons, List.nodup_cons] at hnodup
      have hmem : e.2 ∈ (d.tasks.drop (joined + 1)).map (·.2) := List.mem_map_of_mem he
      rw [hsame] at hmem
      exact hnodup.1 hmem
    have hold := hr.slots e
    rw [hstanding, hdrop] at hold
    exact (hothers e.2 hne).trans (hold (List.mem_cons_of_mem _ he))
  · intro e he
    have he : e ∈ d.tasks.take (joined + 1) := he
    rw [htake] at he
    rcases List.mem_append.mp he with he | he
    · have hold := hr.joined e
      rw [hstanding] at hold
      exact hold he
    · rw [List.mem_singleton.mp he]
      exact hended
  · have hold := hr.failed
    rw [hstanding] at hold
    have hlast :
        [(t, job)].filterMap (failure? es) = ((failureOf outcome.deliver).map (t, ·)).toList := by
      have hfailure : failure? es (t, job) = (failureOf outcome.deliver).map (t, ·) := by
        rw [failure?, hlookup]
        rfl
      cases hf : (failureOf outcome.deliver).map (t, ·) with
      | none => rw [List.filterMap_cons_none (hfailure.trans hf)]; rfl
      | some f => rw [List.filterMap_cons_some (hfailure.trans hf)]; rfl
    change failed ++ _ = (d.tasks.take (joined + 1)).filterMap (failure? es)
    rw [htake, List.filterMap_append, hlast, ← hold]
  · have hold := hr.stopping
    rw [hstanding] at hold
    rw [hslots]
    exact hold
  · have hold := hr.released
    rw [hstanding] at hold
    exact hold

theorem closes (hr : d.Reported es) (hd : d.Manned crew es) {failed : List (Task × Failure)}
    (hphase : d.phase = .joining d.tasks.length failed) :
    (d.closePool d.tasks.length failed).Reported es := by
  have hstanding : d.phase.standing = ⟨d.tasks.length, failed, none, false⟩ := by rw [hphase]; rfl
  have hopen := hr.stopping
  rw [hstanding] at hopen
  obtain ⟨hthreads, -, -, -, -, hstopping, hnext⟩ := hd.pool.shutdown hopen
  have hjoined := hr.joined
  have hfailed := hr.failed
  have hreleased := hr.released
  rw [hstanding] at hjoined hfailed hreleased
  refine ⟨?_, hjoined, hfailed, Nat.le_refl _, hstopping, ?_, nofun, hreleased⟩
  · intro e he
    change e ∈ d.tasks.drop d.tasks.length at he
    rw [List.drop_length] at he
    cases he
  · intro n hn
    obtain rfl := Option.some.inj hn
    exact ⟨hthreads.trans hnext.symm, rfl⟩

theorem concludes (hr : d.Reported es) {joined threads : Nat} {failed : List (Task × Failure)}
    (hphase : d.phase = .draining joined failed threads) (hgone : d.pool.workers = []) :
    (d.conclude joined failed threads).Reported es := by
  have hstanding : d.phase.standing = ⟨joined, failed, some threads, false⟩ := by rw [hphase]; rfl
  obtain ⟨hslots, hjoined, hfailed, hle, hstopping, hthreads, -, hreleased⟩ := hr
  rw [hstanding] at hslots hjoined hfailed hle hstopping hthreads hreleased
  refine ⟨hslots, hjoined, hfailed, hle, hstopping, hthreads, fun _ => ⟨rfl, hgone⟩, ?_⟩
  change d.released + 1 = 1
  rw [hreleased]
  rfl

end Reported

/-! ## Every act -/

/-- The staff of a daemon, with how loops ended so far. -/
structure Staffed (crew : Nat) (d : Daemon) (es : List Ending) :
    Prop extends d.Manned crew es, d.Reported es

theorem Staffed.act {crew : Nat} {h : Handler} {d d' : Daemon} {es : List Ending}
    (hs : d.Staffed crew es) {a : Act} (ha : d.act h a = some d') :
    d'.Staffed crew (es ++ ((d.note? a).bind Note.ending?).toList) := by
  have hd := hs.toManned
  have hr := hs.toReported
  have htasks := (act_frame ha).1
  have hcourse := act_course ha
  have hsame : d'.pool = d.pool → d'.expiries = d.expiries → d'.phase.standing = d.phase.standing →
      d'.released = d.released → d'.Staffed crew (es ++ (none : Option Ending).toList) := by
    intro hpool hexpiries hstanding hreleased
    rw [Option.toList_none, List.append_nil]
    refine ⟨hd.goesOn hpool htasks hexpiries, hr.goesOn htasks hstanding hreleased ?_ ?_ ?_ ?_⟩
    all_goals rw [hpool]
    · exact fun _ _ => rfl
    · exact fun _ => rfl
    · exact id
  generalize (d.note? a).bind Note.ending? = ending at hcourse
  cases hcourse with
  | goesOn hpool hexpiries hphase hreleased =>
      exact hsame hpool hexpiries (congrArg _ hphase) hreleased
  | tells left hpool hexpiries hbefore hafter hreleased =>
      apply hsame hpool hexpiries _ hreleased
      rw [hafter]
      exact standing_of_telling hbefore
  | ends t outcome hrunning hpool hexpiries hphase hreleased =>
      exact ⟨hd.ends hrunning hpool htasks hexpiries,
        hr.ends hd hrunning hpool htasks hphase hreleased⟩
  | passes hrunning hstopped heq =>
      rw [Option.toList_none, List.append_nil]
      have hopen := hr.open_of_running hd hrunning
      obtain ⟨hmanned, hstill, -, hslot⟩ := hd.pass hopen
      have hphase : d.pass.phase = d.phase ∧ d.pass.released = d.released := by
        rw [pass_eq]
        exact ⟨rfl, rfl⟩
      rw [heq] at htasks ⊢
      refine ⟨hmanned, hr.goesOn htasks (congrArg _ hphase.1) hphase.2 (fun e _ => hslot e.2)
        (hstill.trans hopen.symm)
        ?_ ?_⟩
      · exact fun hstop => absurd (hopen.symm.trans hstop) (by decide)
      · intro hnone
        obtain ⟨job, -, hheld⟩ := hd.isRunning_iff.mp hrunning
        rw [Pool.held, hnone] at hheld
        cases hheld
  | expires job hbusy hjob hpool hexpiries hphase hreleased =>
      rw [Option.toList_none, List.append_nil]
      have hheld := hd.isBusyWith_iff.mp hbusy
      obtain ⟨-, hended⟩ := hd.completes hheld (List.mem_append_right _ hjob) (.ok (.ok ()))
      rw [← hpool] at hended
      refine ⟨hd.expires hbusy hjob hpool htasks hexpiries,
        hr.goesOn htasks (congrArg _ hphase) hreleased ?_
        hended.stopping (fun _ => hended.nextWorker) ?_⟩
      · intro e he
        have hne : e.2 ≠ job := fun hsame => hd.not_expiry (t := e.1) he (hsame ▸ hjob)
        rw [hended.slot, if_neg hne]
      · intro hnone
        rw [Pool.held, hnone] at hheld
        cases hheld
  | joins joined failed t job ending hphase htask hending heq =>
      rw [Option.toList_none, List.append_nil]
      subst heq
      exact ⟨hd.joins job rfl rfl rfl, hr.joins hd hphase htask hending⟩
  | closes joined failed hact hphase hall heq =>
      rw [Option.toList_none, List.append_nil]
      subst heq hall
      have hopen : d.pool.stopping = false := by
        rw [hr.stopping, hphase]
        rfl
      exact ⟨hd.closes hopen, hr.closes hd hphase⟩
  | concludes joined failed threads hact hphase hgone heq =>
      rw [Option.toList_none, List.append_nil]
      subst heq
      exact ⟨hd.goesOn rfl rfl rfl, hr.concludes hphase hgone⟩

end SessionDispatch.Daemon
