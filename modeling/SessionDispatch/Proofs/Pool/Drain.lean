import SessionDispatch.Proofs.Pool.Notes
import SessionDispatch.Proofs.Pool.Rest

/-!
# Every task once, and none left behind

Submissions, workers, the growth of the pool and shutdowns follow one another in any order, also
between the parts of one submission or of one shutdown. Every task that was taken is started once,
in the order of the line, and its outcome is given away once at most. Workers stay until a pool that
is stopping has no task in line, and after a shutdown has taken the list of workers there are no new
ones.
-/

namespace SessionDispatch.Pool

variable {α : Type} {p p' : Pool α}

def staff (p : Pool α) : List Nat := p.workers.map (·.1)

/-- Workers come only by a thread that is being started, and go only when nothing is left to do. -/
theorem staff_act (hs : p.Sound) {a : Act α} (ha : p.act a = some p') :
    (p'.staff.Perm p.staff ∧ p'.nextWorker = p.nextWorker) ∨
      (p.spawning = true ∧ ∀ w ∈ p.staff, w ∈ p'.staff) ∨
      (p.stopping = true ∧ p.queue = [] ∧ (∀ w ∈ p'.staff, w ∈ p.staff) ∧
        p'.nextWorker = p.nextWorker) := by
  have hperm : p'.staff = p.staff → p'.nextWorker = p.nextWorker →
      p'.staff.Perm p.staff ∧ p'.nextWorker = p.nextWorker := fun h hn => ⟨.of_eq h, hn⟩
  cases a with
  | submit =>
      obtain rfl := Option.some.inj ha
      left
      unfold submit
      split_ifs
      all_goals exact ⟨.refl _, rfl⟩
  | notify woken =>
      left
      obtain ⟨-, ⟨w, hw, rfl⟩ | ⟨-, rfl⟩⟩ := act_notify ha
      · exact ⟨(moves_setWork (p := { p with notices := p.notices - 1 }) hs.ids hw .idle).ids, rfl⟩
      · exact ⟨.refl _, rfl⟩
  | grow =>
      obtain ⟨-, -, rfl⟩ := act_grow ha
      exact .inl ⟨.refl _, rfl⟩
  | spawn started =>
      obtain ⟨hsp, rfl⟩ := act_spawn ha
      refine .inr (.inl ⟨hsp, fun w hw => ?_⟩)
      cases started with
      | false => exact hw
      | true =>
          obtain ⟨v, hv, rfl⟩ := List.mem_map.mp hw
          exact List.mem_map_of_mem (List.mem_append_left _ hv)
  | start worker =>
      obtain ⟨task, rest, hw, -, rfl⟩ := act_start ha
      exact .inl ⟨(moves_setWork (p := { p with queue := rest }) hs.ids hw _).ids, rfl⟩
  | sleep worker =>
      obtain ⟨hw, -, -, rfl⟩ := act_sleep ha
      exact .inl ⟨(moves_setWork hs.ids hw .asleep).ids, rfl⟩
  | finish worker outcome =>
      obtain ⟨task, hw, rfl⟩ := act_finish ha
      exact .inl ⟨(moves_setWork (p := p.setSlot task _) hs.ids hw _).ids, rfl⟩
  | close worker =>
      obtain ⟨task, hw, rfl⟩ := act_close ha
      exact .inl ⟨(moves_setWork (p := p.setSlot task _) hs.ids hw _).ids, rfl⟩
  | release worker =>
      obtain ⟨task, hw, rfl⟩ := act_release ha
      refine .inl ⟨Moves.ids (p := p) (y := .idle)
        ⟨_, perm_filter hs.ids hw, List.perm_append_singleton ..⟩, rfl⟩
  | exit worker =>
      obtain ⟨-, hst, hq, rfl⟩ := act_exit ha
      exact .inr (.inr ⟨hst, hq, fun w hw => (List.filter_sublist.map _).mem hw, rfl⟩)
  | rouse =>
      obtain ⟨-, rfl⟩ := act_rouse ha
      exact .inl ⟨.of_eq (ids_rouse p), rfl⟩
  | stop =>
      obtain rfl := Option.some.inj ha
      exact .inl ⟨.refl _, rfl⟩
  | takeHandles =>
      obtain ⟨-, -, rfl⟩ := act_takeHandles ha
      exact .inl ⟨.refl _, rfl⟩
  | take task =>
      obtain rfl := Option.some.inj ha
      left
      unfold take
      split
      all_goals exact ⟨.refl _, rfl⟩

theorem stopping_act {a : Act α} (ha : p.act a = some p') :
    p'.stopping = true ↔ p.stopping = true ∨ a = .stop := by
  cases a with
  | stop =>
      obtain rfl := Option.some.inj ha
      exact ⟨fun _ => .inr rfl, fun _ => rfl⟩
  | submit =>
      obtain rfl := Option.some.inj ha
      unfold submit
      split_ifs <;> simp
  | notify woken =>
      obtain ⟨-, ⟨w, -, rfl⟩ | ⟨-, rfl⟩⟩ := act_notify ha <;> simp [setWork]
  | grow =>
      obtain ⟨-, -, rfl⟩ := act_grow ha
      simp [grow]
  | spawn started =>
      obtain ⟨-, rfl⟩ := act_spawn ha
      cases started <;> simp [spawn]
  | start worker =>
      obtain ⟨task, rest, -, -, rfl⟩ := act_start ha
      simp [setWork]
  | sleep worker =>
      obtain ⟨-, -, -, rfl⟩ := act_sleep ha
      simp [setWork]
  | finish worker outcome =>
      obtain ⟨task, -, rfl⟩ := act_finish ha
      simp [setWork, setSlot]
  | close worker =>
      obtain ⟨task, -, rfl⟩ := act_close ha
      simp [setWork, setSlot]
  | release worker =>
      obtain ⟨task, -, rfl⟩ := act_release ha
      simp
  | exit worker =>
      obtain ⟨-, -, -, rfl⟩ := act_exit ha
      simp
  | rouse =>
      obtain ⟨-, rfl⟩ := act_rouse ha
      simp [rouse]
  | takeHandles =>
      obtain ⟨-, -, rfl⟩ := act_takeHandles ha
      simp
  | take task =>
      obtain rfl := Option.some.inj ha
      unfold take
      split <;> simp [setSlot]

theorem stopping_run {acts : List (Act α)} (hr : p.run acts = some p') :
    p'.stopping = true ↔ p.stopping = true ∨ .stop ∈ acts := by
  induction acts generalizing p with
  | nil =>
      obtain rfl := Option.some.inj hr
      simp
  | cons a acts ih =>
      obtain ⟨q, ha, hq⟩ := Run.foldlM_cons_eq_some hr
      rw [ih hq, stopping_act ha, List.mem_cons, or_assoc, eq_comm (a := a)]

/-- A shutdown has taken the list of workers, and nobody is about to add one. -/
structure Sealed (p : Pool α) : Prop where
  stopping : p.stopping = true
  idle : p.spawning = false
  taken : p.handles = []

theorem sealed_takeHandles (h : p.act .takeHandles = some p') : p'.Sealed := by
  obtain ⟨hst, hsp, rfl⟩ := act_takeHandles h
  exact ⟨hst, hsp, rfl⟩

theorem Sealed.act (hp : p.Sealed) {a : Act α} (ha : p.act a = some p') : p'.Sealed := by
  have hst : p'.stopping = true := (stopping_act ha).mpr (.inl hp.stopping)
  have hsame : p'.spawning = p.spawning → p'.handles = p.handles → p'.Sealed := fun hs hh =>
    ⟨hst, hs.trans hp.idle, hh.trans hp.taken⟩
  cases a with
  | submit =>
      obtain rfl := Option.some.inj ha
      rw [submit_of_stopping hp.stopping]
      exact hp
  | notify woken => obtain ⟨-, ⟨w, -, rfl⟩ | ⟨-, rfl⟩⟩ := act_notify ha <;> exact hsame rfl rfl
  | grow =>
      obtain ⟨-, -, rfl⟩ := act_grow ha
      refine ⟨hst, ?_, hp.taken⟩
      rw [grow, hp.stopping]
      rfl
  | spawn started =>
      obtain ⟨hsp, -⟩ := act_spawn ha
      exact absurd (hsp.symm.trans hp.idle) (by decide)
  | start worker =>
      obtain ⟨task, rest, -, -, rfl⟩ := act_start ha
      exact hsame rfl rfl
  | sleep worker =>
      obtain ⟨-, -, -, rfl⟩ := act_sleep ha
      exact hsame rfl rfl
  | finish worker outcome =>
      obtain ⟨task, -, rfl⟩ := act_finish ha
      exact hsame rfl rfl
  | close worker =>
      obtain ⟨task, -, rfl⟩ := act_close ha
      exact hsame rfl rfl
  | release worker =>
      obtain ⟨task, -, rfl⟩ := act_release ha
      exact hsame rfl rfl
  | exit worker =>
      obtain ⟨-, -, -, rfl⟩ := act_exit ha
      exact hsame rfl rfl
  | rouse =>
      obtain ⟨-, rfl⟩ := act_rouse ha
      exact hsame rfl rfl
  | stop =>
      obtain rfl := Option.some.inj ha
      exact hsame rfl rfl
  | takeHandles => exact sealed_takeHandles ha
  | take task =>
      obtain rfl := Option.some.inj ha
      unfold take at hsame ⊢
      split at hsame <;> exact hsame rfl rfl

/-- After a shutdown has taken the list of workers, workers only go. -/
theorem Sealed.run (hs : p.Sound) (hp : p.Sealed) {acts : List (Act α)}
    (hr : p.run acts = some p') :
    p'.Sealed ∧ p'.nextWorker = p.nextWorker ∧ ∀ w ∈ p'.staff, w ∈ p.staff := by
  induction acts generalizing p with
  | nil =>
      obtain rfl := Option.some.inj hr
      exact ⟨hp, rfl, fun _ hw => hw⟩
  | cons a acts ih =>
      obtain ⟨q, ha, hq⟩ := Run.foldlM_cons_eq_some hr
      obtain ⟨hsealed, hnext, hstaff⟩ := ih (hs.act ha) (hp.act ha) hq
      refine ⟨hsealed, ?_⟩
      obtain ⟨hperm, hn⟩ | ⟨hsp, -⟩ | ⟨-, -, hsub, hn⟩ := staff_act hs ha
      · exact ⟨hnext.trans hn, fun w hw => hperm.mem_iff.mp (hstaff w hw)⟩
      · exact absurd (hsp.symm.trans hp.idle) (by decide)
      · exact ⟨hnext.trans hn, fun w hw => hsub w (hstaff w hw)⟩

/-! ## The whole -/

/-- All tasks that were taken have been started and have ended, each once. -/
def Drained (p : Pool α) (ns : List (Note α)) : Prop :=
  p.queue = [] ∧ p.outstanding = 0 ∧ started ns = accepted ns ∧
    ∀ t ∈ accepted ns, ∃ outcome, outcomes ns t = [outcome]

theorem drained (hs : p.Sound) {ns : List (Note α)} (ht : p.Told ns) (hq : p.queue = [])
    (hbusy : ∀ w ∈ p.workers, w.2.isBusy = false) : p.Drained ns := by
  have hst : started ns = List.range p.nextTask := by
    have h := ht.started
    rw [hq, List.append_nil] at h
    exact h
  refine ⟨hq, ?_, hst.trans ht.accepted.symm, ?_⟩
  · have hc := hs.counted
    rw [hq, count_eq_zero.mpr hbusy] at hc
    exact hc
  · intro t hm
    have hrun : p.count (Work.isRunning t) = 0 := by
      refine count_eq_zero.mpr fun w hw => ?_
      have hb := hbusy w hw
      cases hwork : w.2 <;> simp_all [Work.isRunning, Work.isBusy]
    have h := ht.running t
    rw [hrun, hst, List.count_eq_one_of_mem List.nodup_range (ht.accepted ▸ hm)] at h
    exact List.length_eq_one_iff.mp h

namespace Told

variable {ns : List (Note α)}

theorem length_outcomes_le (ht : p.Told ns) (t : Nat) : (outcomes ns t).length ≤ 1 := by
  have hnodup : (List.range p.nextTask).Nodup := List.nodup_range
  rw [← ht.started] at hnodup
  have hle := List.nodup_iff_count_le_one.mp hnodup.of_append_left t
  have hrun := ht.running t
  omega

/-- What a handle gives now follows from what was noted of its task. -/
theorem take_eq (ht : p.Told ns) (t : Nat) :
    (p.take t).1 =
      if (Pool.given ns t).isEmpty then (outcomes ns t).head?.map Outcome.deliver
      else if t ∈ Pool.closed ns then some (.error .taskLost) else none := by
  have hgiven := ht.given t
  unfold Pool.take
  cases ho : (p.slot t).outcome with
  | some outcome =>
      rw [ho, Option.map_some, Option.toList_some] at hgiven
      have hlen := congrArg List.length hgiven
      rw [List.length_map, List.length_append, List.length_singleton] at hlen
      have hle := ht.length_outcomes_le t
      have hnil : Pool.given ns t = [] := List.length_eq_zero_iff.mp (by omega)
      rw [hnil, List.nil_append] at hgiven
      rw [hnil, List.isEmpty_nil, if_pos rfl, ← List.head?_map, hgiven]
      rfl
  | none =>
      rw [ho, Option.map_none, Option.toList_none, List.append_nil] at hgiven
      have hclosed := ht.closed t
      cases hg : Pool.given ns t with
      | cons r rs =>
          rw [List.isEmpty_cons, if_neg Bool.false_ne_true]
          exact if_congr hclosed rfl rfl
      | nil =>
          rw [hg, List.map_eq_nil_iff] at hgiven
          have hsent := ht.sent t
          rw [hgiven, List.length_nil] at hsent
          have hno : ¬ (p.slot t).closed = true := fun h =>
            absurd (List.count_pos_iff.mpr (hclosed.mp h)) (by omega)
          rw [if_neg hno, hgiven]
          rfl

end Told

/-- Every task that is taken is started once, in the order in which tasks were queued; a pool that
is stopping takes none. Tasks in line and tasks of workers are those that count as outstanding.
Workers go only from a pool that is stopping and has no task in line, so that with the last worker
all tasks have ended; and once a shutdown has taken the list of workers, none is added. The handle
of a task gives its outcome once at most. Without new tasks the pool comes to rest after so many
acts, and then nothing is left to do. -/
theorem tasks_run_once_and_drain (threads threshold : Nat) (acts : List (Act α))
    (hr : (new threads threshold).run acts = some p) :
    let ns := (new threads threshold).notes acts
    (accepted ns = List.range p.nextTask ∧ started ns ++ p.queue = accepted ns) ∧
      p.outstanding = p.queue.length + p.count Work.isBusy ∧
      (p.stopping = true ↔ .stop ∈ acts) ∧
      (p.stopping = true → p.submit = (.error .poolClosed, p)) ∧
      (∀ a p' w, p.act a = some p' → w ∈ p.staff → w ∉ p'.staff →
        p.stopping = true ∧ p.queue = []) ∧
      (p.staff = [] → p.Drained ns) ∧
      (∀ before after q, acts = before ++ .takeHandles :: after →
        (new threads threshold).run before = some q →
          p.handles = [] ∧ p.nextWorker = q.nextWorker ∧ ∀ w ∈ p.staff, w ∈ q.staff) ∧
      (∀ t, given ns t <+: (outcomes ns t).map Outcome.deliver ∧ (outcomes ns t).length ≤ 1 ∧
        (p.take t).1 =
          if (given ns t).isEmpty then (outcomes ns t).head?.map Outcome.deliver
          else if t ∈ closed ns then some (.error .taskLost) else none) ∧
      (p.Rests → p.Drained ns ∧ (p.stopping = true → p.staff = [])) ∧
      ∀ more q, (∀ a ∈ more, a.isOwn = true) → p.run more = some q → more.length ≤ p.effort := by
  intro ns
  have hs : p.Sound := (sound_new threads threshold).run hr
  have ht : p.Told ns := told_run (sound_new threads threshold) (told_new threads threshold) hr
  refine ⟨⟨ht.accepted, ht.started.trans ht.accepted.symm⟩, hs.counted, ?_, submit_of_stopping, ?_,
    ?_, ?_, ?_,
    ?_, ?_⟩
  · rw [stopping_run hr]
    exact or_iff_right Bool.false_ne_true
  · intro a p' w ha hw hgone
    obtain ⟨hperm, -⟩ | ⟨-, hall⟩ | ⟨hst, hq, -⟩ := staff_act hs ha
    · exact absurd (hperm.mem_iff.mpr hw) hgone
    · exact absurd (hall w hw) hgone
    · exact ⟨hst, hq⟩
  · intro hstaff
    have hw : p.workers = [] := List.map_eq_nil_iff.mp hstaff
    refine drained hs ht (hs.staffed.resolve_left (absurd hw)).2 ?_
    rw [hw]
    nofun
  · intro before after q hacts hq
    rw [hacts, run, List.foldlM_append] at hr
    obtain ⟨q', hq', hr⟩ := Option.bind_eq_some_iff.mp hr
    obtain rfl : q' = q := Option.some.inj (hq'.symm.trans hq)
    obtain ⟨u, hu, hr⟩ := Run.foldlM_cons_eq_some hr
    have hsq : q'.Sound := (sound_new threads threshold).run hq
    obtain ⟨hsealed, hnext, hstaff⟩ := (sealed_takeHandles hu).run (hsq.act hu) hr
    obtain ⟨-, -, rfl⟩ := act_takeHandles hu
    exact ⟨hsealed.taken, hnext, hstaff⟩
  · intro t
    exact ⟨⟨_, (ht.given t).symm⟩, ht.length_outcomes_le t, ht.take_eq t⟩
  · intro hrests
    refine ⟨drained hs ht (hrests.queue_eq hs) fun w hw => ?_, fun hst => ?_⟩
    · rw [hrests.asleep hs w hw]
      rfl
    · exact List.map_eq_nil_iff.mpr (hrests.workers_eq hs hst)
  · intro more q hown hrun
    have hle := length_add_effort_le hs hown hrun
    omega

/-- Two tasks, of which the second adds a worker while the pool is already told to stop. -/
def lastTasks : List (Act Nat) :=
  [.submit, .submit, .notify none, .notify none, .grow, .stop, .spawn true, .rouse, .takeHandles,
    .start 0, .finish 0 (.ok 7), .take 0, .close 0, .release 0, .start 1, .finish 1 (.error "late"),
    .close 1, .release 1, .exit 0, .exit 1]

theorem tasks_run_once_and_drain_lastTasks :
    ∃ p, (new 1 1).run lastTasks = some p ∧ p.staff = [] ∧ p.Drained ((new 1 1).notes lastTasks) ∧
      (p.take 0).1 = some (.error .taskLost) ∧
      (p.take 1).1 = some (.error (.taskPanicked "late")) := by
  obtain ⟨p, hr⟩ : ∃ p, (new 1 1).run lastTasks = some p := Option.isSome_iff_exists.mp (by cbv)
  have hstaff : ((new 1 1).run lastTasks).map staff = some [] := by cbv
  rw [hr, Option.map_some, Option.some.injEq] at hstaff
  obtain ⟨-, -, -, -, -, hdrained, -, htakes, -⟩ := tasks_run_once_and_drain 1 1 lastTasks hr
  refine ⟨p, hr, hstaff, hdrained hstaff, (htakes 0).2.2.trans ?_, (htakes 1).2.2.trans ?_⟩
  · cbv
  · cbv

end SessionDispatch.Pool
