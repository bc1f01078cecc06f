import SessionDispatch.Proofs.Pool.Drain

/-!
# Workers of a pool that was not made

Threads are started one by one, and the first that cannot be started ends the creation of the pool.
The workers before it are running by then. They have no task, nobody else can reach what they share,
and nothing of it tells them to stop: each looks for a task once and goes to sleep. A stop is all
that is missing for them to leave.
-/

namespace SessionDispatch.Pool

variable {α : Type} {p p' : Pool α}

/-! ## Creation -/

section Creation

variable {threads threshold : Nat} {canStart : Nat → Bool}

/-- No pool is made if a thread cannot be started. The workers that came before the first such
thread are left. -/
theorem create_eq_error_iff {left : Pool α} :
    create threads threshold canStart = .error left ↔
      ∃ failed < max threads 1, canStart failed = false ∧ (∀ n < failed, canStart n = true) ∧
        left = { withWorkers threshold failed with nextWorker := failed + 1 } := by
  unfold create
  dsimp only
  split
  · rename_i failed hfind
    obtain ⟨hno, hlt, hbefore⟩ := List.find?_range_eq_some.mp hfind
    simp only [Bool.not_eq_true', Bool.not_not] at hno hbefore
    constructor
    · rintro ⟨⟩
      exact ⟨failed, List.mem_range.mp hlt, hno, fun n hn => by simpa using hbefore n hn, rfl⟩
    · rintro ⟨other, -, hother, hall, rfl⟩
      rcases Nat.lt_trichotomy failed other with h | rfl | h
      · exact absurd (hno.symm.trans (hall failed h)) (by decide)
      · rfl
      · exact absurd (hother.symm.trans (by simpa using hbefore other h)) (by decide)
  · rename_i hfind
    constructor
    · nofun
    · rintro ⟨failed, hlt, hno, -⟩
      have hstart := List.find?_eq_none.mp hfind failed (List.mem_range.mpr hlt)
      simp [hno] at hstart

theorem create_eq_ok_iff {made : Pool α} :
    create threads threshold canStart = .ok made ↔
      (∀ n < max threads 1, canStart n = true) ∧ made = new threads threshold := by
  unfold create
  dsimp only
  split
  · rename_i failed hfind
    obtain ⟨hno, hlt, -⟩ := List.find?_range_eq_some.mp hfind
    constructor
    · nofun
    · rintro ⟨hall, -⟩
      simp [hall failed (List.mem_range.mp hlt)] at hno
  · rename_i hfind
    constructor
    · rintro ⟨⟩
      exact ⟨fun n hn => by simpa using List.find?_eq_none.mp hfind n (List.mem_range.mpr hn), rfl⟩
    · rintro ⟨-, rfl⟩
      rfl

end Creation

/-! ## Workers that nobody can reach -/

/-- The workers have no task and none is to come, and nothing tells them to stop. -/
structure Stranded (p : Pool α) : Prop where
  ids : p.staff.Nodup
  below : ∀ w ∈ p.staff, w < p.nextWorker
  free : ∀ w ∈ p.workers, w.2.isBusy = false
  stopping : p.stopping = false
  queue : p.queue = []
  outstanding : p.outstanding = 0
  notices : p.notices = 0
  growing : p.growing = 0
  spawning : p.spawning = false
  alarms : p.alarms = 0

theorem staff_withWorkers (threshold count : Nat) :
    (withWorkers threshold count : Pool α).staff = List.range count := by
  unfold staff withWorkers
  rw [List.map_map]
  exact List.map_id _

theorem staff_setWork (p : Pool α) (worker : Nat) (w : Work) :
    (p.setWork worker w).staff = p.staff := by
  unfold staff setWork
  rw [List.map_map]
  refine List.map_congr_left fun v _ => ?_
  dsimp only [Function.comp_apply]
  split_ifs <;> rfl

/-- So it is right after the failure. -/
theorem stranded_of_create {threads threshold : Nat} {canStart : Nat → Bool} {left : Pool α}
    (h : create threads threshold canStart = .error left) :
    ∃ failed < max threads 1, canStart failed = false ∧ (∀ n < failed, canStart n = true) ∧
      left.Stranded ∧ left.staff = List.range failed := by
  obtain ⟨failed, hlt, hno, hbefore, rfl⟩ := create_eq_error_iff.mp h
  have hstaff : (withWorkers threshold failed : Pool α).staff = List.range failed :=
    staff_withWorkers threshold failed
  refine ⟨failed, hlt, hno, hbefore, ?_, hstaff⟩
  exact {
    ids := hstaff ▸ List.nodup_range
    below := by
      intro w hw
      exact Nat.lt_succ_of_lt (List.mem_range.mp (hstaff ▸ hw))
    free := by
      intro w hw
      obtain ⟨n, -, rfl⟩ := List.mem_map.mp hw
      rfl
    stopping := rfl
    queue := rfl
    outstanding := rfl
    notices := rfl
    growing := rfl
    spawning := rfl
    alarms := rfl }

namespace Stranded

variable (hp : p.Stranded)
include hp

theorem not_busy {worker : Nat} {w : Work} (h : p.workOf? worker = some w) : w.isBusy = false :=
  hp.free _ (mem_of_workOf? h)

/-- All that such workers can do is to go to sleep, one after the other. -/
theorem act_eq_some_iff {a : Act α} (hown : a.isOwn = true) :
    p.act a = some p' ↔
      ∃ worker, a = .sleep worker ∧ p.workOf? worker = some .idle ∧
        p' = p.setWork worker .asleep := by
  constructor
  · intro ha
    cases a with
    | submit => cases hown
    | stop => cases hown
    | takeHandles => cases hown
    | take task => cases hown
    | notify woken => exact absurd hp.notices (act_notify ha).1
    | grow => exact absurd hp.growing (act_grow ha).1
    | spawn started => exact absurd (hp.spawning.symm.trans (act_spawn ha).1) (by decide)
    | rouse => exact absurd hp.alarms (act_rouse ha).1
    | start worker =>
        obtain ⟨task, rest, -, hq, -⟩ := act_start ha
        exact absurd (hp.queue.symm.trans hq) (List.cons_ne_nil task rest).symm
    | sleep worker =>
        obtain ⟨hw, -, -, rfl⟩ := act_sleep ha
        exact ⟨worker, rfl, hw, rfl⟩
    | finish worker outcome =>
        obtain ⟨task, hw, -⟩ := act_finish ha
        cases hp.not_busy hw
    | close worker =>
        obtain ⟨task, hw, -⟩ := act_close ha
        cases hp.not_busy hw
    | release worker =>
        obtain ⟨task, hw, -⟩ := act_release ha
        cases hp.not_busy hw
    | exit worker =>
        obtain ⟨-, hst, -⟩ := act_exit ha
        exact absurd (hp.stopping.symm.trans hst) (by decide)
  · rintro ⟨worker, rfl, hw, rfl⟩
    dsimp only [Pool.act]
    rw [hw]
    exact if_neg (by simp [hp.stopping, hp.queue])

theorem setWork {worker : Nat} {w : Work} (hw : w.isBusy = false) : (p.setWork worker w).Stranded :=
  { hp with
    ids := (staff_setWork p worker w).symm ▸ hp.ids
    below := (staff_setWork p worker w).symm ▸ hp.below
    free := by
      intro v hv
      obtain ⟨u, hu, rfl⟩ := List.mem_map.mp hv
      dsimp only
      split_ifs
      · exact hw
      · exact hp.free u hu }

/-- Nobody comes or goes, however long it takes. -/
theorem run {acts : List (Act α)} (hown : ∀ a ∈ acts, a.isOwn = true) (hr : p.run acts = some p') :
    p'.Stranded ∧ p'.staff = p.staff ∧
      acts.length + p'.count Work.isIdle = p.count Work.isIdle := by
  induction acts generalizing p with
  | nil =>
      obtain rfl := Option.some.inj hr
      exact ⟨hp, rfl, Nat.zero_add _⟩
  | cons a acts ih =>
      obtain ⟨q, ha, hq⟩ := Run.foldlM_cons_eq_some hr
      have hown := List.forall_mem_cons.mp hown
      obtain ⟨worker, -, hw, rfl⟩ := (hp.act_eq_some_iff hown.1).mp ha
      obtain ⟨hstranded, hstaff, hlen⟩ := ih (hp.setWork rfl) hown.2 hq
      refine ⟨hstranded, hstaff.trans (staff_setWork ..), ?_⟩
      have hcount := (moves_setWork hp.ids hw .asleep).count Work.isIdle
      simp only [Work.isIdle, Bool.false_eq_true, if_false, if_true] at hcount
      rw [List.length_cons]
      omega

theorem rests_iff : p.Rests ↔ ∀ w ∈ p.workers, w.2 = .asleep := by
  constructor
  · exact fun hrests => hrests.asleep_of_nodup hp.ids
  · intro hall a hown
    refine Option.eq_none_iff_forall_not_mem.mpr fun q hq => ?_
    obtain ⟨worker, -, hw, -⟩ := (hp.act_eq_some_iff hown).mp hq
    cases hall _ (mem_of_workOf? hw)

/-- A stop that wakes the workers finds everything in order, also if no worker was started
at all. -/
theorem sound_stopped : p.halt.rouse.Sound where
  ids := (ids_rouse p.halt).symm ▸ hp.ids
  below := by
    intro w hw
    have hmem := List.mem_map_of_mem (f := (·.1)) hw
    rw [ids_rouse] at hmem
    exact hp.below w.1 hmem
  counted := by
    rw [count_rouse _ rfl]
    change p.outstanding = p.queue.length + p.count Work.isBusy
    rw [hp.outstanding, hp.queue, count_eq_zero.mpr hp.free]
    rfl
  staffed := .inr ⟨rfl, hp.queue⟩
  awake := .inl (count_asleep_rouse _)
  alarmed := fun _ _ => count_asleep_rouse _
  halted := fun _ => rfl

end Stranded

/-- Where a thread cannot be started, the workers before it stay. Whatever they do, they have not
been told to stop and none of them has gone; each does no more than to go to sleep, and when all
sleep nothing of their own can happen any more. A stop, at any time, would let all of them go. -/
theorem failed_creation_strands_workers {threads threshold : Nat} {canStart : Nat → Bool}
    {left : Pool α} (h : create threads threshold canStart = .error left) :
    ∃ failed < max threads 1, canStart failed = false ∧ (∀ n < failed, canStart n = true) ∧
      ∀ acts p, (∀ a ∈ acts, a.isOwn = true) → left.run acts = some p →
        p.stopping = false ∧ p.staff = List.range failed ∧ acts.length ≤ failed ∧
          (p.Rests ↔ ∀ w ∈ p.workers, w.2 = .asleep) ∧
          ∀ more q, (∀ a ∈ more, a.isOwn = true) → p.halt.rouse.run more = some q →
            more.length ≤ p.halt.rouse.effort ∧ (q.Rests → q.staff = []) := by
  obtain ⟨failed, hlt, hno, hbefore, hleft, hrange⟩ := stranded_of_create h
  refine ⟨failed, hlt, hno, hbefore, fun acts p hown hr => ?_⟩
  obtain ⟨hp, hstaff, hlen⟩ := hleft.run hown hr
  refine ⟨hp.stopping, hstaff.trans hrange, ?_, hp.rests_iff, fun more q hmore hq => ?_⟩
  · calc
      acts.length ≤ left.count Work.isIdle := Nat.le_of_add_right_le (Nat.le_of_eq hlen)
      _ ≤ left.workers.length := List.countP_le_length
      _ = left.staff.length := (List.length_map _).symm
      _ = failed := by rw [hrange, List.length_range]
  · have hsound := hp.sound_stopped
    have hle := length_add_effort_le hsound hmore hq
    refine ⟨Nat.le_of_add_right_le hle, fun hrests => List.map_eq_nil_iff.mpr ?_⟩
    exact hrests.workers_eq (hsound.run hq) ((stopping_run hq).mpr (.inl rfl))

theorem failed_creation_strands_workers_third :
    ∃ left p : Pool Nat, create 3 50 (· < 2) = .error left ∧
      left.run [.sleep 1, .sleep 0] = some p ∧ p.stopping = false ∧ p.staff = [0, 1] ∧
      p.Rests := by
  obtain ⟨left, hleft⟩ : ∃ left : Pool Nat, create 3 50 (· < 2) = .error left := ⟨_, rfl⟩
  obtain ⟨failed, hlt, hno, -, hall⟩ := failed_creation_strands_workers hleft
  obtain rfl : failed = 2 := by
    have hge : ¬ failed < 2 := of_decide_eq_false hno
    change failed < 3 at hlt
    omega
  obtain ⟨p, hp⟩ : ∃ p, left.run [.sleep 1, .sleep 0] = some p := by
    cases hleft
    exact ⟨_, rfl⟩
  obtain ⟨hstop, hstaff, -, hrests, -⟩ := hall _ p (by decide) hp
  refine ⟨left, p, hleft, hp, hstop, hstaff, hrests.mpr ?_⟩
  cases hleft
  cases hp
  decide

/-- Two workers that wait for ever for a task: the third could not be started, and they are not told
to stop. -/
theorem not_told_to_stop :
    ∃ left p : Pool Nat, create 3 50 (· < 2) = .error left ∧
      left.run [.sleep 0, .sleep 1] = some p ∧ p.staff = [0, 1] ∧ p.stopping = false ∧
      p.Rests := by
  obtain ⟨left, hleft⟩ : ∃ left : Pool Nat, create 3 50 (· < 2) = .error left := ⟨_, rfl⟩
  obtain ⟨p, hp⟩ : ∃ p, left.run [.sleep 0, .sleep 1] = some p := by
    cases hleft
    exact ⟨_, rfl⟩
  obtain ⟨-, -, -, -, hstranded, -⟩ := stranded_of_create hleft
  obtain ⟨hstranded, -⟩ := hstranded.run (by decide) hp
  refine ⟨left, p, hleft, hp, ?_, hstranded.stopping, hstranded.rests_iff.mpr ?_⟩
  all_goals
    cases hleft
    cases hp
    decide

end SessionDispatch.Pool
