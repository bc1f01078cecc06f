import SessionDispatch.Proofs.Daemon.Readiness

/-!
# What a shutdown reports

When a daemon is down, every loop was told to end and has ended, the records that were accepted were
dispatched unless nobody was left to do so, and the report tells how the loops ended, how many
workers there were and how many sessions were live at the end. After that nothing happens any more,
so the handler is released once and after its last call.
-/

namespace SessionDispatch.Daemon

variable {h : Handler} {network : Network} {crew : Nat} {c : Configuration} {now : Instant}
variable {d₀ d d' : Daemon}
  {ns : List Note} {acts : List Act} {r : ShutdownReport}

/-- The loops, the orders and the families stay as they were. -/
theorem run_frame (hrun : d₀.run h acts = some d) : d.tasks = d₀.tasks ∧ d.orders = d₀.orders ∧
    d.services.map (·.family) = d₀.services.map (·.family) := by
  refine Run.invariant (fun d => d.tasks = d₀.tasks ∧ d.orders = d₀.orders ∧
    d.services.map (·.family) = d₀.services.map (·.family)) ?_ ⟨rfl, rfl, rfl⟩ hrun
  rintro d a d' ⟨htasks, horders, hfamilies⟩ ha
  obtain ⟨htasks', -, hshape⟩ := act_frame ha
  exact ⟨htasks'.trans htasks, hshape.orders.trans horders, hshape.families.trans hfamilies⟩

/-! ## A daemon that is down -/

/-- What holds when a daemon is down that was started as `d₀` with so many workers, if this was
noted of its run. -/
structure Concluded (crew : Nat) (d₀ d : Daemon) (ns : List Note) (r : ShutdownReport) : Prop where
  obeyed : ∀ o ∈ d₀.orders, d.Obeyed o
  ended : ((endings ns).map (·.1)).Perm (d₀.tasks.map (·.1))
  dispatched : ∀ s ∈ d₀.services, (accepted ns s.family).Perm (dispatched ns s.family) ∨
    ∀ n, .dispatcher s.family n ∈ d₀.tasks.map (·.1) →
      ∃ text, (.dispatcher s.family n, .error text) ∈ endings ns
  joined : r.tasksJoined = d₀.tasks.length
  failed : r.failed = d₀.tasks.filterMap (failure? (endings ns))
  threads : r.threadsJoined = crew + d.pool.metrics.length
  stopping : d.pool.stopping = true
  workers : d.pool.workers = []
  outstanding : d.pool.outstanding = 0
  released : d.released = 1

section Down

variable (hd : d.Accounted crew ns) (hdown : d.phase = .down r)
include hd hdown

theorem workers_of_down : d.pool.workers = [] := by
  refine (hd.staffed.down ?_).2
  rw [hdown]
  rfl

theorem live_of_down : d.pool.live = [] := by
  have hgone := workers_of_down hd hdown
  have hqueue := (hd.staffed.pool.sound.staffed.resolve_left fun hne => hne hgone).2
  rw [Pool.live, Pool.held, hqueue, hgone]
  rfl

theorem ended_of_down {t : Task} (ht : t ∈ d.tasks.map (·.1)) : t ∈ (endings ns).map (·.1) := by
  have hthreads := hd.staffed.threads r.threadsJoined
  have hjoined := hd.staffed.joined
  rw [hdown] at hthreads hjoined
  obtain ⟨e, he, rfl⟩ := List.mem_map.mp ht
  refine hjoined e ?_
  rw [(hthreads rfl).2, List.take_length]
  exact he

/-- What a family accepted was dispatched, if one of its dispatchers was still there to see that
nothing was left. -/
theorem dispatched_of_down {family : Family} {n : Nat}
    (hmem : .dispatcher family n ∈ d.tasks.map (·.1))
    (hok : ∀ text, (.dispatcher family n, .error text) ∉ endings ns) :
    (accepted ns family).Perm (dispatched ns family) := by
  obtain ⟨⟨t, outcome⟩, hended, rfl⟩ := List.mem_map.mp (ended_of_down hd hdown hmem)
  cases outcome with
  | error text => exact absurd hended (hok text)
  | ok result =>
      obtain ⟨q, hq, -, hitems⟩ := hd.balanced.drained family n result hended
      have hhands : d.hands = [] := by
        refine List.eq_nil_iff_forall_not_mem.mpr fun e he => ?_
        obtain ⟨hmem, hopen⟩ := hd.held.holders e.1 (List.mem_map_of_mem he)
        exact hopen (ended_of_down hd hdown hmem)
      have hrecords := hd.balanced.records family q hq
      rw [inHand, hhands, hitems] at hrecords
      simpa using hrecords

end Down

theorem Accounted.concluded (hd₀ : d₀.Accounted crew []) (hrun : d₀.run h acts = some d)
    (hdown : d.phase = .down r) :
    Concluded crew d₀ d (d₀.notes h acts) r := by
  have hd := hd₀.run hrun
  rw [List.nil_append] at hd
  obtain ⟨htasks, horders, hfamilies⟩ := run_frame hrun
  have htold : d.phase.isTold = true := by rw [hdown]; rfl
  have hstanding : d.phase.standing = ⟨r.tasksJoined, r.failed, some r.threadsJoined, true⟩ := by
    rw [hdown]; rfl
  have hthreads := hd.staffed.threads r.threadsJoined
  have hfailed := hd.staffed.failed
  have hstopping := hd.staffed.stopping
  have hreleased := hd.staffed.released
  rw [hstanding] at hthreads hfailed hstopping hreleased
  obtain ⟨hworkers, hjoined⟩ := hthreads rfl
  have hlive := hd.staffed.pool.sound.length_live
  rw [live_of_down hd hdown] at hlive
  refine ⟨?_, ?_, ?_, hjoined.trans (congrArg _ htasks), ?_, hworkers.trans hd.staffed.pool.grown,
    hstopping,
    workers_of_down hd hdown, hlive.symm, hreleased⟩
  · intro o ho
    exact hd.told.obeyed htold (horders ▸ ho)
  · rw [← htasks, List.perm_ext_iff_of_nodup hd.staffed.once hd.staffed.names]
    exact fun t => ⟨hd.staffed.loops t, ended_of_down hd hdown⟩
  · intro s hs
    rw [or_iff_not_imp_right]
    intro hsome
    push Not at hsome
    obtain ⟨n, hmem, hok⟩ := hsome
    exact dispatched_of_down hd hdown (htasks ▸ hmem) hok
  · change r.failed = (d.tasks.take r.tasksJoined).filterMap _ at hfailed
    change r.tasksJoined = d.tasks.length at hjoined
    rw [hfailed, hjoined, List.take_length, htasks]

/-! ## How it got there -/

/-- In a daemon that is down only time goes on. -/
theorem tick_of_down (hgone : d.pool.workers = []) (hdown : d.phase = .down r) {a : Act}
    (ha : d.act h a = some d') :
    ∃ span, a = .tick span := by
  have hbusy : ∀ job, d.isBusyWith job = false := by
    intro job
    rw [isBusyWith, hgone]
    rfl
  have hidle : ∀ t, ¬ d.isRunning t = true := by
    intro t hrunning
    obtain ⟨job, -, hjob⟩ := (Option.any_eq_true _ _).mp hrunning
    rw [hbusy] at hjob
    cases hjob
  cases a with
  | receive family id p => exact absurd (act_receive ha).1 (hidle _)
  | take t => exact absurd (act_take ha).1 (hidle _)
  | dispatch family n panic => exact absurd (act_dispatch ha).1 (hidle _)
  | transmit family id delivery => exact absurd (act_transmit ha).1 (hidle _)
  | fail t f => exact absurd (act_fail ha).1 (hidle _)
  | tick span => exact ⟨span, rfl⟩
  | pass => exact absurd (act_pass ha).1 (hidle _)
  | expire job =>
      have hjob := (act_expire ha).1
      rw [hbusy] at hjob
      cases hjob
  | reload files env => exact absurd (act_reload ha).1 (hidle _)
  | stop => cases hdown.symm.trans (act_stop ha).1
  | order =>
      obtain ⟨o, left, hphase, -⟩ := act_order ha
      cases hdown.symm.trans hphase
  | finish t => exact absurd (act_finish ha).1 (hidle _)
  | join =>
      obtain ⟨joined, failed, t, job, ending, hphase, -⟩ := act_join ha
      cases hdown.symm.trans hphase
  | closePool =>
      obtain ⟨joined, failed, hphase, -⟩ := act_closePool ha
      cases hdown.symm.trans hphase
  | conclude =>
      obtain ⟨joined, failed, threads, hphase, -⟩ := act_conclude ha
      cases hdown.symm.trans hphase

theorem ticks_of_down (hd : d.Accounted crew ns) (hdown : d.phase = .down r)
    (hrun : d.run h acts = some d') :
    ∀ a ∈ acts, ∃ span, a = .tick span := by
  induction acts generalizing d ns with
  | nil => exact List.forall_mem_nil _
  | cons a acts ih =>
      obtain ⟨e, ha, hrest⟩ := Run.foldlM_cons_eq_some hrun
      have hdown' := (act_course ha).turn.down hdown
      exact List.forall_mem_cons.mpr
        ⟨tick_of_down (workers_of_down hd hdown) hdown ha, ih (hd.act ha) hdown' hrest⟩

/-- The act that closes the pool counts the workers. -/
theorem exists_closePool (hd₀ : d₀.Accounted crew ns) (hup : d₀.phase = .running)
    (hrun : d₀.run h acts = some d) {threads : Nat}
    (hthreads : d.phase.standing.threads = some threads) :
    ∃ before after e, acts = before ++ .closePool :: after ∧ d₀.run h before = some e ∧
      threads = e.pool.workerCount := by
  have hnone : ¬ d₀.phase.standing.threads = some threads := by
    rw [hup]
    exact nofun
  obtain ⟨before, a, after, e, e', hacts, he, hbefore, ha, hafter, -⟩ :=
    Run.exists_step (fun d => d.phase.standing.threads = some threads) hnone hrun hthreads
  have hcourse := act_course ha
  generalize (e.note? a).bind Note.ending? = ending at hcourse
  cases hcourse with
  | goesOn hpool hexpiries hphase hreleased => exact absurd (hphase ▸ hafter) hbefore
  | tells left hpool hexpiries hstill htold hreleased =>
      rw [htold, standing_ofOrders] at hafter
      cases hafter
  | ends t outcome hrunning hpool hexpiries hphase hreleased =>
      exact absurd (hphase ▸ hafter) hbefore
  | passes hrunning hstopped heq =>
      rw [heq, pass_eq] at hafter
      exact absurd hafter hbefore
  | expires job hbusy hjob hpool hexpiries hphase hreleased =>
      exact absurd (hphase ▸ hafter) hbefore
  | joins joined failed t job ending hphase htask hending heq =>
      rw [heq] at hafter
      cases hafter
  | closes joined failed hact hphase hall heq =>
      refine ⟨before, after, e, hact ▸ hacts, he, ?_⟩
      have hstaffed := (hd₀.run he).staffed
      have hopen : e.pool.stopping = false := by
        rw [hstaffed.stopping, hphase]
        rfl
      rw [heq] at hafter
      rw [hstaffed.pool.numbered hopen, ← (hstaffed.pool.shutdown hopen).1]
      exact (Option.some.inj hafter).symm
  | concludes joined failed n hact hphase hgone heq =>
      rw [heq] at hafter
      rw [hphase] at hbefore
      exact absurd hafter hbefore

/-- The last act of a shutdown counts the sessions. After it only time goes on. -/
theorem exists_conclude (hd₀ : d₀.Accounted crew ns) (hup : d₀.phase = .running)
    (hrun : d₀.run h acts = some d) (hdown : d.phase = .down r) :
    ∃ before after e, acts = before ++ .conclude :: after ∧ d₀.run h before = some e ∧
      e.phase = .draining r.tasksJoined r.failed r.threadsJoined ∧ e.pool.workers = [] ∧
      r.sessionsDropped = e.sessionCount ∧ ∀ a ∈ after, ∃ span, a = .tick span := by
  have hnone : ¬ d₀.phase = .down r := by
    rw [hup]
    exact nofun
  obtain ⟨before, a, after, e, e', hacts, he, hbefore, ha, hafter, hrest⟩ :=
    Run.exists_step (fun d => d.phase = .down r) hnone hrun hdown
  have hticks := ticks_of_down ((hd₀.run he).act ha) hafter hrest
  have hcourse := act_course ha
  generalize (e.note? a).bind Note.ending? = ending at hcourse
  cases hcourse with
  | goesOn hpool hexpiries hphase hreleased => exact absurd (hphase.symm.trans hafter) hbefore
  | tells left hpool hexpiries hstill htold hreleased =>
      rw [htold] at hafter
      cases left <;> cases hafter
  | ends t outcome hrunning hpool hexpiries hphase hreleased =>
      exact absurd (hphase.symm.trans hafter) hbefore
  | passes hrunning hstopped heq =>
      rw [heq, pass_eq] at hafter
      exact absurd hafter hbefore
  | expires job hbusy hjob hpool hexpiries hphase hreleased =>
      exact absurd (hphase.symm.trans hafter) hbefore
  | joins joined failed t job ending hphase htask hending heq =>
      rw [heq] at hafter
      cases hafter
  | closes joined failed hact hphase hall heq =>
      rw [heq] at hafter
      cases hafter
  | concludes joined failed threads hact hphase hgone heq =>
      rw [heq] at hafter
      obtain rfl := Phase.down.inj hafter
      exact ⟨before, after, e, hact ▸ hacts, he, hphase, hgone, rfl, hticks⟩

/-! ## The report -/

/-- Whoever lets go of a daemon that runs shuts it down, and one that was shut down is left alone. A
shutdown comes to its end from every state. Before the first loop is waited for every loop was told
to end. When the daemon is down, every loop has ended and the report counts them, names those that
failed in the order in which they were started, and counts the workers of the pool when it was
closed and the sessions that were live when all workers had gone. What a family accepted was
dispatched, unless all its dispatchers ended in a panic. The handler is released once, and after
that only time goes on. -/
theorem shutdown_report_exact (hstart : start h network c now = .ok d₀)
    (hrun : d₀.run h acts = some d) (outside : Network) :
    (d.phase = .running → d.drop h outside = d.shutdown h outside ∧
        ∃ more r, d.run h more = some (d.shutdown h outside) ∧
          (d.shutdown h outside).phase = .down r) ∧
      (d.phase ≠ .running → d.drop h outside = d ∧
        ∃ more d' r, d.run h more = some d' ∧ d'.phase = .down r) ∧
      (d.phase.isTold = true → ∀ t ∈ d₀.tasks.map (·.1),
        orderFor t ∈ d₀.orders ∧ d.Obeyed (orderFor t)) ∧
      ∀ r, d.phase = .down r → Concluded (crewOf c) d₀ d (d₀.notes h acts) r ∧
        ∃ first second last closing concluding,
          acts = first ++ .closePool :: second ++ .conclude :: last ∧
          d₀.run h first = some closing ∧ r.threadsJoined = closing.pool.workerCount ∧
          d₀.run h (first ++ .closePool :: second) = some concluding ∧
          concluding.pool.workers = [] ∧
          r.sessionsDropped = concluding.sessionCount ∧ concluding.released = 0 ∧
          ∀ a ∈ last, ∃ span, a = .tick span := by
  obtain ⟨hd₀, hup⟩ := started hstart
  have hd := hd₀.run hrun
  refine ⟨?_, ?_, ?_, ?_⟩
  · intro hphase
    refine ⟨?_, shutdown_down h outside hd hphase⟩
    rw [drop, hphase]
  · intro hphase
    refine ⟨?_, exists_run_down h outside hd⟩
    unfold drop
    split
    · rename_i hrunning
      exact absurd hrunning hphase
    · rfl
  · intro htold t ht
    have hordered := hd₀.wired.ordered t ht
    exact ⟨hordered, hd.told.obeyed htold ((run_frame hrun).2.1 ▸ hordered)⟩
  · intro r hdown
    refine ⟨hd₀.concluded hrun hdown, ?_⟩
    obtain ⟨before, last, concluding, rfl, hbefore, hphase, hgone, hsessions, hticks⟩ :=
      exists_conclude hd₀ hup hrun hdown
    have hthreads : concluding.phase.standing.threads = some r.threadsJoined := by rw [hphase]; rfl
    obtain ⟨first, second, closing, rfl, hfirst, hcount⟩ :=
      exists_closePool hd₀ hup hbefore hthreads
    have hreleased := (hd₀.run hbefore).staffed.released
    rw [hphase] at hreleased
    exact ⟨first, second, last, closing, concluding, rfl, hfirst, hcount, hbefore, hgone, hsessions,
      hreleased, hticks⟩

/-- A record is answered, the answer cannot be sent, and the daemon is shut down. -/
def sendFails : List Act :=
  [.receive .v4 0 ⟨.v4 ⟨127, 0, 0, 1⟩ 9, [1]⟩, .take (.dispatcher .v4 0), .dispatch .v4 0 none,
    .take (.sender .v4 0), .transmit .v4 0 (.failed .networkUnreachable), .stop, .order, .order,
    .order, .order, .order, .finish .timer, .finish (.dispatcher .v4 0), .finish (.receiver .v4 0),
    .finish .reloadWatcher, .join, .join, .join, .join, .join, .closePool, .conclude, .tick 1]

/-- What came of the loops, and what was counted. -/
theorem run_sendFails :
    ((start .echo .unlimited oneEndpoint 0).toOption.bind (·.run .echo sendFails)).map
    (fun d => match d.phase with
      | .down r => some (r.tasksJoined, r.failed.map (·.1), r.threadsJoined, r.sessionsDropped)
      | _ => none) = some (some (5, [.sender .v4 0], 6, 1)) := by decide +kernel

theorem shutdown_report_exact_sendFails :
    ∃ d₀ d r, start .echo .unlimited oneEndpoint 0 = .ok d₀ ∧ d₀.run .echo sendFails = some d ∧
      d.phase = .down r ∧ r.tasksJoined = 5 ∧ r.failed.map (·.1) = [.sender .v4 0] ∧
      r.threadsJoined = 6 ∧ r.sessionsDropped = 1 ∧
      r.failed = d₀.tasks.filterMap (failure? (endings (d₀.notes .echo sendFails))) ∧
      d.released = 1 ∧ d.drop .echo .unlimited = d := by
  have hrun := run_sendFails
  cases hstart : start .echo .unlimited oneEndpoint 0 with
  | error e =>
      rw [hstart] at hrun
      cases hrun
  | ok d₀ =>
      rw [hstart] at hrun
      obtain ⟨d, hd, hphase⟩ := Option.map_eq_some_iff.mp hrun
      obtain ⟨-, hdropped, -, hreport⟩ := shutdown_report_exact hstart hd .unlimited
      cases hdown : d.phase with
      | down r =>
          rw [hdown] at hphase
          simp only [Option.some.injEq, Prod.mk.injEq] at hphase
          obtain ⟨hjoined, hfailed, hthreads, hsessions⟩ := hphase
          obtain ⟨hconcluded, -⟩ := hreport r hdown
          have hended : d.phase ≠ .running := hdown ▸ nofun
          exact ⟨d₀, d, r, rfl, hd, hdown, hjoined, hfailed, hthreads, hsessions, hconcluded.failed,
            hconcluded.released, (hdropped hended).1⟩
      | _ =>
          rw [hdown] at hphase
          cases hphase

end SessionDispatch.Daemon
