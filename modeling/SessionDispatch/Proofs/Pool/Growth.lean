import SessionDispatch.Proofs.Pool.Drain

/-!
# Growth keeps pace with the backlog

A submission adds a worker by the count of tasks that it finds, some of which may have ended by the
time at which the worker comes. The surplus over the threshold is therefore at most as great as the
number of workers that were added or are about to be: a submission that makes it greater brings a
worker with it, and an end makes it smaller and takes no worker away.
-/

namespace SessionDispatch.Pool

variable {α : Type} {p p' : Pool α} {n g : Nat}

def growths (p : Pool α) : Nat := p.growing + if p.spawning then 1 else 0

theorem length_setWork (p : Pool α) (worker : Nat) (w : Work) :
    (p.setWork worker w).workers.length = p.workers.length :=
  List.length_map _

theorem count_add_count_not (p : Pool α) (P : Work → Bool) :
    p.count P + p.count (!P ·) = p.workers.length := by
  unfold count
  rw [List.length_eq_countP_add_countP (fun w : Nat × Work => P w.2)]
  simp

/-- An open pool that started with `n` workers and has a worker more for every task above its
threshold `g`. -/
structure Paced (n g : Nat) (p : Pool α) : Prop where
  sound : p.Sound
  opened : p.stopping = false
  threshold : p.threshold = g
  present : p.workers.length = p.workerCount
  pace : n + (p.outstanding - g) ≤ p.workerCount + p.growths

namespace Paced

theorem new (threads threshold : Nat) :
    (new threads threshold : Pool α).Paced (max threads 1) threshold where
  sound := sound_new threads threshold
  opened := rfl
  threshold := rfl
  present := List.length_map _
  pace := by simp [Pool.new, withWorkers, workerCount, growths]

/-- Whatever adds no task and no worker keeps the pace. -/
theorem of_same (hp : p.Paced n g) (hs : p'.Sound) (hstop : p'.stopping = p.stopping)
    (hthreshold : p'.threshold = p.threshold) (hhandles : p'.handles = p.handles)
    (hworkers : p'.workers.length = p.workers.length) (hgrowths : p'.growths = p.growths)
    (hout : p'.outstanding ≤ p.outstanding) : p'.Paced n g where
  sound := hs
  opened := hstop.trans hp.opened
  threshold := hthreshold.trans hp.threshold
  present := by rw [hworkers, hp.present, workerCount, workerCount, hhandles]
  pace := by
    have hpace := hp.pace
    rw [workerCount, hhandles, hgrowths]
    rw [workerCount] at hpace
    omega

/-- A task that comes above the threshold comes with a worker. -/
theorem submit (hp : p.Paced n g) : p.submit.2.Paced n g := by
  have hs := hp.sound.submit
  have hpace := hp.pace
  have hopen := hp.opened
  have hthreshold := hp.threshold
  unfold Pool.submit at hs ⊢
  rw [if_neg (by simp [hopen])] at hs ⊢
  refine ⟨hs, hopen, hthreshold, hp.present, ?_⟩
  simp only [workerCount, growths, hthreshold] at hpace ⊢
  split_ifs at hpace ⊢ <;> omega

theorem grow (hp : p.Paced n g) (ha : p.act .grow = some p') : p'.Paced n g := by
  obtain ⟨hgrowing, hspawning, rfl⟩ := act_grow ha
  refine hp.of_same hp.sound.grow rfl rfl rfl rfl ?_ (Nat.le_refl _)
  simp only [growths, Pool.grow, hp.opened, hspawning, Bool.not_false, Bool.false_eq_true, if_true,
    if_false]
  omega

/-- A growth ends with a worker more. -/
theorem spawn (hp : p.Paced n g) (ha : p.act (.spawn true) = some p') : p'.Paced n g := by
  obtain ⟨hspawning, rfl⟩ := act_spawn ha
  have hpace := hp.pace
  have hpresent := hp.present
  refine ⟨hp.sound.spawn true, hp.opened, hp.threshold, ?_, ?_⟩
  · simp only [Pool.spawn, workerCount, if_true, List.length_append, List.length_singleton]
      at hpresent ⊢
    omega
  · simp only [Pool.spawn, workerCount, growths, hspawning, if_true, List.length_append,
      List.length_singleton, Bool.false_eq_true, if_false] at hpace ⊢
    omega

/-- Every act but a stop and a failure to start a thread keeps the pace. -/
theorem act (hp : p.Paced n g) {a : Act α} (hstop : a ≠ .stop) (hspawn : a ≠ .spawn false)
    (ha : p.act a = some p') :
    p'.Paced n g := by
  have hs := hp.sound.act ha
  have hclosed : ∀ {P : Prop}, p.stopping = true → P :=
    fun h => absurd (hp.opened.symm.trans h) Bool.false_ne_true
  cases a with
  | submit =>
      obtain rfl := Option.some.inj ha
      exact hp.submit
  | notify woken =>
      obtain ⟨-, ⟨w, -, rfl⟩ | ⟨-, rfl⟩⟩ := act_notify ha
      · exact hp.of_same hs rfl rfl rfl (length_setWork _ w .idle) rfl (Nat.le_refl _)
      · exact hp.of_same hs rfl rfl rfl rfl rfl (Nat.le_refl _)
  | grow => exact hp.grow ha
  | spawn started =>
      cases started with
      | true => exact hp.spawn ha
      | false => exact absurd rfl hspawn
  | start worker =>
      obtain ⟨task, rest, -, -, rfl⟩ := act_start ha
      exact hp.of_same hs rfl rfl rfl (length_setWork _ worker _) rfl (Nat.le_refl _)
  | sleep worker =>
      obtain ⟨-, -, -, rfl⟩ := act_sleep ha
      exact hp.of_same hs rfl rfl rfl (length_setWork _ worker _) rfl (Nat.le_refl _)
  | finish worker outcome =>
      obtain ⟨task, -, rfl⟩ := act_finish ha
      exact hp.of_same hs rfl rfl rfl (length_setWork _ worker _) rfl (Nat.le_refl _)
  | close worker =>
      obtain ⟨task, -, rfl⟩ := act_close ha
      exact hp.of_same hs rfl rfl rfl (length_setWork _ worker _) rfl (Nat.le_refl _)
  | release worker =>
      obtain ⟨task, hw, rfl⟩ := act_release ha
      have hlen := (perm_filter hp.sound.ids hw).length_eq
      refine hp.of_same hs rfl rfl rfl ?_ rfl (Nat.sub_le _ _)
      rw [hlen, List.length_append]
      rfl
  | exit worker =>
      obtain ⟨-, hst, -, -⟩ := act_exit ha
      exact hclosed hst
  | rouse =>
      obtain ⟨halarms, -⟩ := act_rouse ha
      exact hclosed (hp.sound.halted halarms)
  | stop => exact absurd rfl hstop
  | takeHandles =>
      obtain ⟨hst, -, -⟩ := act_takeHandles ha
      exact hclosed hst
  | take task =>
      obtain rfl := Option.some.inj ha
      refine hp.of_same hs ?_ ?_ ?_ ?_ ?_ ?_
      all_goals
        unfold Pool.take
        split <;> simp [setSlot, growths]

theorem run (hp : p.Paced n g) {acts : List (Act α)} (hstop : .stop ∉ acts)
    (hspawn : .spawn false ∉ acts) (hr : p.run acts = some p') : p'.Paced n g := by
  refine Run.invariant_of_forall (Paced n g) (A := fun a => a ≠ .stop ∧ a ≠ .spawn false)
    (fun _ _ _ ha hp => hp.act ha.1 ha.2) ?_ hp hr
  intro a ha
  constructor
  · rintro rfl
    exact hstop ha
  · rintro rfl
    exact hspawn ha

/-- But for as many tasks as the threshold leaves without a worker, there is a worker for every task
in line that is free or about to be added. -/
theorem length_queue_le (hp : p.Paced n g) :
    p.queue.length ≤ g - n + p.growths + p.count (!·.isBusy) := by
  have hall := p.count_add_count_not Work.isBusy
  have hcounted := hp.sound.counted
  have hpresent := hp.present
  have hpace := hp.pace
  omega

end Paced

/-! ## The number of workers -/

theorem workerCount_le_act (hopen : p.stopping = false) {a : Act α} (ha : p.act a = some p') :
    p.workerCount ≤ p'.workerCount := by
  have hsame : p'.handles = p.handles → p.workerCount ≤ p'.workerCount := fun h =>
    Nat.le_of_eq (congrArg List.length h.symm)
  cases a with
  | submit =>
      obtain rfl := Option.some.inj ha
      apply hsame
      unfold submit
      split_ifs <;> rfl
  | notify woken =>
      obtain ⟨-, ⟨w, -, rfl⟩ | ⟨-, rfl⟩⟩ := act_notify ha
      all_goals exact hsame rfl
  | grow =>
      obtain ⟨-, -, rfl⟩ := act_grow ha
      exact hsame rfl
  | spawn started =>
      obtain ⟨-, rfl⟩ := act_spawn ha
      cases started with
      | false => exact hsame rfl
      | true =>
          simp only [workerCount, spawn, if_true, List.length_append]
          exact Nat.le_add_right _ _
  | start worker =>
      obtain ⟨task, rest, -, -, rfl⟩ := act_start ha
      exact hsame rfl
  | sleep worker =>
      obtain ⟨-, -, -, rfl⟩ := act_sleep ha
      exact hsame rfl
  | finish worker outcome =>
      obtain ⟨task, -, rfl⟩ := act_finish ha
      exact hsame rfl
  | close worker =>
      obtain ⟨task, -, rfl⟩ := act_close ha
      exact hsame rfl
  | release worker =>
      obtain ⟨task, -, rfl⟩ := act_release ha
      exact hsame rfl
  | exit worker =>
      obtain ⟨-, -, -, rfl⟩ := act_exit ha
      exact hsame rfl
  | rouse =>
      obtain ⟨-, rfl⟩ := act_rouse ha
      exact hsame rfl
  | stop =>
      obtain rfl := Option.some.inj ha
      exact hsame rfl
  | takeHandles =>
      obtain ⟨hst, -, -⟩ := act_takeHandles ha
      exact absurd (hopen.symm.trans hst) Bool.false_ne_true
  | take task =>
      obtain rfl := Option.some.inj ha
      apply hsame
      unfold take
      split <;> rfl

theorem workerCount_le_run (hopen : p.stopping = false) {acts : List (Act α)} (hstop : .stop ∉ acts)
    (hr : p.run acts = some p') : p.workerCount ≤ p'.workerCount := by
  induction acts generalizing p with
  | nil =>
      obtain rfl := Option.some.inj hr
      exact Nat.le_refl _
  | cons a acts ih =>
      obtain ⟨q, ha, hq⟩ := Run.foldlM_cons_eq_some hr
      obtain ⟨hne, hrest⟩ := not_or.mp (mt List.mem_cons.mpr hstop)
      have hqopen : q.stopping = false := by
        apply Bool.eq_false_iff.mpr
        intro hst
        rcases (stopping_act ha).mp hst with hst | rfl
        · exact absurd (hopen.symm.trans hst) Bool.false_ne_true
        · exact hne rfl
      exact (workerCount_le_act hopen ha).trans (ih hqopen hrest hq)

/-- However submissions, starts and ends of tasks follow one another, as long as threads can be
started and the pool is not told to stop, there is a worker or a growth for each of the first
workers and for each task above the threshold, and workers do not become fewer. Of the tasks in line
all but those by which the threshold exceeds the first workers have a worker that is free or about
to be added, so if every worker has a task and none is about to be added, no others wait. -/
theorem growth_keeps_pace (threads threshold : Nat) (acts : List (Act α)) (hstop : .stop ∉ acts)
    (hspawn : .spawn false ∉ acts) (hr : (new threads threshold : Pool α).run acts = some p) :
    max threads 1 + (p.outstanding - threshold) ≤ p.workerCount + p.growths ∧
    (∀ more p', .stop ∉ more → p.run more = some p' → p.workerCount ≤ p'.workerCount) ∧
    p.queue.length ≤ threshold - max threads 1 + p.growths + p.count (!·.isBusy) ∧
    ((∀ w ∈ p.workers, w.2.isBusy = true) → p.growths = 0 →
      p.queue.length ≤ threshold - max threads 1 ∧ (threshold ≤ max threads 1 → p.queue = [])) := by
  have hp := (Paced.new threads threshold).run hstop hspawn hr
  have hle := hp.length_queue_le
  refine ⟨hp.pace, fun more p' hmore => workerCount_le_run hp.opened hmore, hle, ?_⟩
  intro hbusy h0
  have hfree : p.count (!·.isBusy) = 0 := count_eq_zero.mpr fun w hw => by rw [hbusy w hw]; rfl
  rw [h0, hfree, Nat.add_zero] at hle
  constructor
  · exact hle
  · intro hn
    rw [Nat.sub_eq_zero_of_le hn] at hle
    exact List.eq_nil_of_length_eq_zero (Nat.le_zero.mp hle)

/-- A task ends between the submission that found four and the growth that this leads to; at the end
all workers have a task, one is in line, and a worker is about to be added. -/
def lateGrowth : List (Act Nat) :=
  [.submit, .submit, .submit, .submit, .start 0, .start 1, .finish 1 (.ok 7), .close 1, .release 1,
    .grow, .spawn true, .start 1, .start 2, .submit]

theorem growth_keeps_pace_lateGrowth :
    ∃ p : Pool Nat, (new 2 3).run lateGrowth = some p ∧ (∀ w ∈ p.workers, w.2.isBusy = true) ∧
      2 + (p.outstanding - 3) ≤ p.workerCount + p.growths ∧ p.outstanding = 4 ∧ p.workerCount = 3 ∧
      p.queue.length ≤ 1 + p.growths + p.count (!·.isBusy) ∧ p.growths = 1 := by
  have h :=
    growth_keeps_pace (α := Nat) 2 3 lateGrowth (by simp [lateGrowth]) (by simp [lateGrowth]) rfl
  exact ⟨_, rfl, by decide, h.1, rfl, rfl, h.2.2.1, rfl⟩

end SessionDispatch.Pool
