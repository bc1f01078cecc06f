import SessionDispatch.Proofs.Pool.Settled

/-!
# Calls of a settled pool

A pool is called, settles, and is called again. A submission makes one more task live and adds a
worker if the tasks are then more than the threshold; the end of a task leaves its outcome for the
handle; a shutdown keeps the live tasks and lets the workers go with the last of them.
-/

namespace SessionDispatch.Pool

variable {α : Type} {p q : Pool α}

namespace Moves

variable {r : Pool α} {worker : Nat} {x y z : Work}

theorem trans (h : Moves p q worker x y) (h' : Moves q r worker y z) : Moves p r worker x z := by
  obtain ⟨others, hp, hq⟩ := h
  obtain ⟨others', hq', hr⟩ := h'
  have ho : others.Perm others' := (hq.symm.trans hq').cons_inv
  exact ⟨others, hp, hr.trans (ho.symm.cons _)⟩

theorem workOf? (h : Moves p q worker x y) (hs : q.Sound) : q.workOf? worker = some y := by
  obtain ⟨others, -, hq⟩ := h
  exact workOf?_of_mem hs.ids (hq.mem_iff.mpr List.mem_cons_self)

end Moves

/-- A settled pool whose workers and handles are all accounted for, if it began with so
many workers. -/
structure Healthy (crew : Nat) (p : Pool α) : Prop extends Settled p where
  keys : p.slots.map (·.1) = List.range p.nextTask
  staff : p.stopping = false → p.staff.Perm p.handles
  numbered : p.stopping = false → p.workerCount = p.nextWorker
  grown : p.nextWorker = crew + p.metrics.length

/-- A pool that goes on from a healthy one, or from one that is about to be, is healthy when it
has settled. -/
theorem Healthy.of_onward {crew : Nat} (hs : p.Sound) (hp : p.Steady)
    (hkeys : p.slots.map (·.1) = List.range p.nextTask)
    (hstaff : p.stopping = false → p.staff.Perm p.handles)
    (hnumbered : p.stopping = false → p.workerCount = p.nextWorker)
    (hgrown : p.nextWorker = crew + p.metrics.length) :
    (p.settle fun _ _ => none).Healthy crew := by
  have hon := Onward.settle hs hp
  obtain ⟨k, hnext, hhandles, hmetrics⟩ := hon.grown
  exact {
    toSettled := settled_settle hs hp
    keys := by rw [hon.slots, hon.nextTask]; exact hkeys
    staff := fun hst => hon.staff (hon.stopping ▸ hst) (hstaff (hon.stopping ▸ hst))
    numbered := by
      intro hst
      have hcount := hnumbered (hon.stopping ▸ hst)
      unfold workerCount at hcount ⊢
      omega
    grown := by omega }

namespace Healthy

variable {crew : Nat}

/-- There are as many workers as handles until the pool is told to stop. -/
theorem length_workers (h : p.Healthy crew) (hst : p.stopping = false) :
    p.workers.length = p.workerCount := by
  have hlen := (h.staff hst).length_eq
  rw [Pool.staff, List.length_map] at hlen
  exact hlen

end Healthy

/-! ## Submissions -/

/-- What a submission changes, when the pool has settled again. -/
structure Admitted (p q : Pool α) : Prop where
  live : q.live.Perm (p.nextTask :: p.live)
  slot : ∀ t, q.slot t = p.slot t
  nextTask : q.nextTask = p.nextTask + 1
  threshold : q.threshold = p.threshold
  stopping : q.stopping = false
  workerCount : q.workerCount = p.workerCount + if p.threshold < p.outstanding + 1 then 1 else 0

section Submit

variable (hs : p.Sound) (hp : p.Steady) (hst : p.stopping = false)
include hs hp hst

omit hs in
theorem steady_submit : p.submit.2.Steady := by
  obtain ⟨growing, hsub⟩ := submit_of_open hst
  rw [hsub]
  exact hp

theorem admitted (hg : p.growing = 0) (hsp : p.spawning = false) :
    Admitted p (p.submit.2.settle fun _ _ => none) := by
  have hon := Onward.settle hs.submit (steady_submit hp hst)
  have hset := settled_settle hs.submit (steady_submit hp hst)
  have hsub : p.submit.2 = { p with
      queue := p.queue ++ [p.nextTask]
      outstanding := p.outstanding + 1
      nextTask := p.nextTask + 1
      notices := p.notices + 1
      growing := if p.threshold < p.outstanding + 1 then p.growing + 1 else p.growing
      slots := p.slots ++ [(p.nextTask, {})] } := by
    rw [submit, if_neg (by simp [hst])]
  generalize p.submit.2.settle (fun _ _ => none) = q at hon hset
  have hlive : p.submit.2.live.Perm (p.nextTask :: p.live) := by
    rw [hsub]
    change ((p.queue ++ [p.nextTask]) ++ p.held).Perm _
    rw [List.append_assoc]
    exact List.perm_middle
  have hcrew : p.submit.2.crew = p.workerCount + if p.threshold < p.outstanding + 1 then 1
      else 0 := by
    rw [hsub]
    dsimp only [crew, workerCount]
    simp only [hst, hsp, hg, Bool.false_eq_true, if_false, Nat.add_zero, Nat.zero_add]
  refine ⟨hon.live.trans hlive, ?_, ?_, ?_, ?_, ?_⟩
  · intro t
    rw [slot, hon.slots, hsub]
    exact lookup_concat ..
  · rw [hon.nextTask, hsub]
  · rw [hon.threshold, hsub]
  · rw [hon.stopping, hsub]
    exact hst
  · rw [← hset.crew_eq, hon.crew, hcrew]

theorem healthy_submit {crew : Nat} (hkeys : p.slots.map (·.1) = List.range p.nextTask)
    (hstaff : p.staff.Perm p.handles) (hnumbered : p.workerCount = p.nextWorker)
    (hgrown : p.nextWorker = crew + p.metrics.length) :
    (p.submit.2.settle fun _ _ => none).Healthy crew := by
  have hsteady := steady_submit hp hst
  have hsound := hs.submit
  obtain ⟨growing, hsub⟩ := submit_of_open hst
  rw [hsub] at hsteady hsound ⊢
  refine .of_onward hsound hsteady ?_ (fun _ => hstaff) (fun _ => hnumbered) hgrown
  change (p.slots ++ [(p.nextTask, ({} : Slot α))]).map (·.1) = List.range (p.nextTask + 1)
  rw [List.map_append, hkeys, List.range_succ]
  rfl

end Submit

theorem Healthy.submit {crew : Nat} (h : p.Healthy crew) (hst : p.stopping = false) :
    (p.submit.2.settle fun _ _ => none).Healthy crew :=
  healthy_submit h.sound h.steady hst h.keys (h.staff hst) (h.numbered hst) h.grown

theorem Settled.admitted (h : p.Settled) (hst : p.stopping = false) :
    Admitted p (p.submit.2.settle fun _ _ => none) :=
  Pool.admitted h.sound h.steady hst h.growing h.spawning

theorem live_new (threads threshold : Nat) : (new threads threshold : Pool α).live = [] := by
  change ([] : List Nat) ++ (new threads threshold : Pool α).held = []
  rw [List.nil_append, held, List.filterMap_eq_nil_iff]
  intro w hw
  obtain ⟨n, -, rfl⟩ := List.mem_map.mp hw
  rfl

/-- A new pool does not grow for its first task, unless its threshold does not allow a
single one. -/
theorem Admitted.workerCount_new {threads threshold : Nat} {q : Pool α}
    (hq : Admitted (new threads threshold) q) (hle : 1 ≤ threshold) :
    q.workerCount = max threads 1 := by
  have hlow : ¬ threshold < 0 + 1 := Nat.not_lt.mpr hle
  have hnew : (new threads threshold : Pool α).workerCount = max threads 1 := List.length_range
  have hcount := hq.workerCount
  rw [hnew] at hcount
  exact hcount.trans (congrArg (max threads 1 + ·) (if_neg hlow))

/-- A new pool is only waiting for its first task. -/
theorem new_submit (threads threshold : Nat) :
    let q := (new threads threshold : Pool α).submit.2.settle fun _ _ => none
    q.Healthy (max threads 1) ∧ Admitted (new threads threshold) q := by
  intro q
  have hs : (new threads threshold : Pool α).Sound := sound_new threads threshold
  have hp : (new threads threshold : Pool α).Steady := by
    intro w hw
    obtain ⟨n, -, rfl⟩ := List.mem_map.mp hw
    rfl
  have hstaff : (new threads threshold : Pool α).staff = List.range (max threads 1) := by
    rw [staff, new, withWorkers, List.map_map]
    exact List.map_id _
  constructor
  · apply healthy_submit hs hp rfl rfl
    · exact .of_eq hstaff
    · exact List.length_range
    · rfl
  · exact Pool.admitted hs hp rfl rfl rfl

/-! ## The end of a task -/

/-- What the end of a task changes, when the pool has settled again. -/
structure Ended (p q : Pool α) (task : Nat) (outcome : Outcome α) : Prop where
  live : p.live.Perm (task :: q.live)
  slot : ∀ t, q.slot t = if t = task then ⟨some outcome, true⟩ else p.slot t
  nextTask : q.nextTask = p.nextTask
  threshold : q.threshold = p.threshold
  stopping : q.stopping = p.stopping
  workerCount : q.workerCount = p.workerCount
  nextWorker : q.nextWorker = p.nextWorker

section FinishTask

variable {worker task : Nat}

/-- The three acts by which a worker is done with its task. -/
theorem exists_run_release (hs : p.Sound) (hw : p.workOf? worker = some (.running task))
    (outcome : Outcome α) :
    ∃ q, p.run [.finish worker outcome, .close worker, .release worker] = some q ∧ q.Sound ∧
      Moves p q worker (.running task) .idle ∧
      q = { (p.setSlot task { p.slot task with outcome }).setSlot task
              { (p.setSlot task { p.slot task with outcome }).slot task with closed := true } with
            outstanding := q.outstanding, workers := q.workers } := by
  obtain ⟨p₁, h₁⟩ : ∃ p₁, p.act (.finish worker outcome) = some p₁ := by simp [act, hw]
  obtain ⟨task₁, hw₁, hp₁⟩ := act_finish h₁
  obtain rfl : task = task₁ := by simpa [hw] using hw₁
  have hs₁ := hs.finish h₁
  have hm₁ : Moves p p₁ worker (.running task) (.sent task) :=
    hp₁ ▸ moves_setWork (p := p.setSlot task _) hs.ids hw _
  have hw₂ := hm₁.workOf? hs₁
  obtain ⟨p₂, h₂⟩ : ∃ p₂, p₁.act (.close worker) = some p₂ := by simp [act, hw₂]
  obtain ⟨task₂, hw₂', hp₂⟩ := act_close h₂
  obtain rfl : task = task₂ := by simpa [hw₂] using hw₂'
  have hs₂ := hs₁.close h₂
  have hm₂ : Moves p₁ p₂ worker (.sent task) (.ending task) :=
    hp₂ ▸ moves_setWork (p := p₁.setSlot task _) hs₁.ids hw₂ _
  have hw₃ := hm₂.workOf? hs₂
  obtain ⟨p₃, h₃⟩ : ∃ p₃, p₂.act (.release worker) = some p₃ := by simp [act, hw₃]
  obtain ⟨task₃, -, hp₃⟩ := act_release h₃
  have hm₃ : Moves p₂ p₃ worker (.ending task) .idle :=
    ⟨_, perm_filter hs₂.ids hw₃, hp₃ ▸ List.perm_append_singleton ..⟩
  refine ⟨p₃, ?_, hs₂.release h₃, (hm₁.trans hm₂).trans hm₃, ?_⟩
  · simp [run, h₁, h₂, h₃]
  · subst hp₁ hp₂ hp₃
    rfl

/-- What is left of a task when its worker is done with it, before the pool settles. -/
structure Released (p q : Pool α) (task : Nat) (outcome : Outcome α) : Prop where
  sound : q.Sound
  steady : q.Steady
  live : p.live.Perm (task :: q.live)
  staff : q.staff.Perm p.staff
  keys : q.slots.map (·.1) = p.slots.map (·.1)
  slot : ∀ t, q.slot t = if t = task then ⟨some outcome, true⟩ else p.slot t
  same : q = { p with slots := q.slots, outstanding := q.outstanding, workers := q.workers }

theorem Settled.finishTask (h : p.Settled) (ht : task ∈ p.held) (hkey : task ∈ p.slots.map (·.1))
    (outcome : Outcome α) :
    ∃ q, p.finishTask task outcome = some q ∧ Released p q task outcome := by
  obtain ⟨w, hw⟩ := h.mem_held_iff.mp ht
  obtain ⟨⟨worker, work⟩, hf⟩ : ∃ e, p.workers.find? (·.2 = .running task) = some e := by
    refine Option.isSome_iff_exists.mp (List.find?_isSome.mpr ⟨_, hw, ?_⟩)
    exact decide_eq_true rfl
  have hrunning := List.find?_some hf
  obtain rfl : work = .running task := of_decide_eq_true hrunning
  have hwork : p.workOf? worker = some (.running task) :=
    workOf?_of_mem h.sound.ids (List.mem_of_find?_eq_some hf)
  obtain ⟨q, hq, hs, hm, hform⟩ := exists_run_release h.sound hwork outcome
  have hfinish : p.finishTask task outcome = some q := by
    rw [Pool.finishTask, hf]
    exact hq
  refine ⟨q, hfinish, hs, hm.steady h.steady rfl, ?_, hm.ids, ?_, fun t => ?_, ?_⟩
  · obtain ⟨rest, hheld, hheld'⟩ := hm.held
    have hqueue : q.queue = p.queue := by rw [hform]; rfl
    rw [live, live, hqueue]
    exact (hheld.append_left p.queue).trans
      (List.perm_middle.trans ((hheld'.symm.append_left p.queue).cons task))
  · rw [hform]
    exact (setSlot_keys _).trans (setSlot_keys _)
  · have hkey' : task ∈ (p.setSlot task { p.slot task with outcome }).slots.map (·.1) := by
      rw [setSlot_keys]
      exact hkey
    have hsame : q.slot t = ((p.setSlot task { p.slot task with outcome }).setSlot task
        { (p.setSlot task { p.slot task with outcome }).slot task
          with closed := true }).slot t := by
      rw [hform]
      rfl
    rw [hsame, slot_setSlot hkey', slot_setSlot hkey, slot_setSlot hkey, if_pos rfl]
    split_ifs <;> rfl
  · rw [hform]
    rfl

/-- A pool that has let go of a task settles without another worker. -/
theorem Released.settle {crew : Nat} {q : Pool α} {outcome : Outcome α}
    (hq : Released p q task outcome) (h : p.Healthy crew) :
    (q.settle fun _ _ => none).Healthy crew ∧ Ended p (q.settle fun _ _ => none) task outcome := by
  have hnext : q.nextTask = p.nextTask := by rw [hq.same]
  have hst : q.stopping = p.stopping := by rw [hq.same]
  have hhandles : q.handles = p.handles := by rw [hq.same]
  have hworker : q.nextWorker = p.nextWorker := by rw [hq.same]
  have hcrew : q.crew = p.crew := by
    rw [hq.same]
    rfl
  have hon := Onward.settle hq.sound hq.steady
  have hhealthy : (q.settle fun _ _ => none).Healthy crew := by
    apply Healthy.of_onward hq.sound hq.steady
    · rw [hq.keys, hnext]
      exact h.keys
    · intro hopen
      rw [hhandles]
      exact hq.staff.trans (h.staff (hst ▸ hopen))
    · intro hopen
      rw [workerCount, hhandles, hworker]
      exact h.numbered (hst ▸ hopen)
    · rw [hworker, hq.same]
      exact h.grown
  have hcount : (q.settle fun _ _ => none).workerCount = p.workerCount := by
    rw [← hhealthy.crew_eq, hon.crew, hcrew, h.crew_eq]
  refine ⟨hhealthy, hq.live.trans (hon.live.symm.cons task), ?_, hon.nextTask.trans hnext, ?_,
    hon.stopping.trans hst,
    hcount, ?_⟩
  · intro t
    rw [Pool.slot, hon.slots]
    exact hq.slot t
  · rw [hon.threshold, hq.same]
  · obtain ⟨k, hk, hk', -⟩ := hon.grown
    unfold workerCount at hcount
    rw [hhandles] at hk'
    omega

theorem Healthy.finishTask {crew : Nat} (h : p.Healthy crew) (ht : task ∈ p.held)
    (hkey : task ∈ p.slots.map (·.1)) (outcome : Outcome α) :
    ∃ q, p.finishTask task outcome = some q ∧ (q.settle fun _ _ => none).Healthy crew ∧
      Ended p (q.settle fun _ _ => none) task outcome := by
  obtain ⟨q, hq, hreleased⟩ := h.toSettled.finishTask ht hkey outcome
  exact ⟨q, hq, hreleased.settle h⟩

end FinishTask

/-! ## The end of a pool -/

/-- A shutdown waits for all workers, keeps the live tasks, and takes no more. -/
theorem Healthy.shutdown {crew : Nat} (h : p.Healthy crew) (hst : p.stopping = false) :
    let q := (p.shutdown none).2.settle fun _ _ => none
    (p.shutdown none).1 = p.nextWorker ∧ q.Healthy crew ∧ q.live.Perm p.live ∧
    (∀ t, q.slot t = p.slot t) ∧
      q.nextTask = p.nextTask ∧ q.stopping = true ∧ q.nextWorker = p.nextWorker := by
  intro q
  have hhalt : p.halt.Sound := h.sound.act (a := .stop) rfl
  have hrouse : p.halt.act .rouse = some p.halt.rouse := by simp [act, halt]
  have honRouse := Onward.rouse hhalt h.steady hrouse
  have hs : (p.shutdown none).2.Sound := by
    have hsound := honRouse.sound
    exact ⟨hsound.ids, hsound.below, hsound.counted, hsound.staffed, hsound.awake, hsound.alarmed,
      hsound.halted⟩
  have hp : (p.shutdown none).2.Steady := honRouse.steady
  have hon : Onward (p.shutdown none).2 q := .settle hs hp
  have hset : q.Settled := settled_settle hs hp
  have hstopping : q.stopping = true := hon.stopping
  have hcrew : q.workerCount = 0 := by
    rw [← hset.crew_eq, hon.crew]
    change 0 + (if p.spawning = true then 1 else 0) + 0 = 0
    rw [h.spawning]
    rfl
  have hgrown : q.nextWorker = p.nextWorker ∧ q.metrics.length = p.metrics.length := by
    obtain ⟨k, hk, hk', hk''⟩ := hon.grown
    have hzero : q.handles.length = 0 + k := hk'
    unfold workerCount at hcrew
    obtain rfl : k = 0 := by omega
    exact ⟨hk, hk''⟩
  refine ⟨?_, ?_, hon.live.trans honRouse.live, ?_, hon.nextTask, hstopping, hgrown.1⟩
  · rw [← h.numbered hst]
    change (p.handles.filter fun w => some w ≠ none).length = p.handles.length
    rw [List.filter_eq_self.mpr fun _ _ => by simp]
  · refine ⟨hset, ?_, ?_, ?_, ?_⟩
    · rw [hon.slots, hon.nextTask]
      exact h.keys
    · intro hopen
      exact absurd (hopen.symm.trans hstopping) (by decide)
    · intro hopen
      exact absurd (hopen.symm.trans hstopping) (by decide)
    · rw [hgrown.1, hgrown.2]
      exact h.grown
  · intro t
    rw [slot, hon.slots]
    rfl

/-- Whoever takes an outcome leaves all else alone. -/
theorem take_eq_setSlot (p : Pool α) (task : Nat) : ∃ slots, (p.take task).2 = { p with slots } ∧
    slots.map (·.1) = p.slots.map (·.1) ∧ ∀ t ≠ task, (p.take task).2.slot t = p.slot t := by
  unfold take
  split
  · refine ⟨_, rfl, setSlot_keys _, fun t ht => ?_⟩
    rw [slot, lookup_setSlot]
    cases hl : p.slots.lookup t <;> simp [slot, hl, ht]
  · exact ⟨p.slots, rfl, rfl, fun _ _ => rfl⟩

theorem Healthy.take {crew : Nat} (h : p.Healthy crew) (task : Nat) :
    (p.take task).2.Healthy crew := by
  obtain ⟨slots, hq, hkeys, -⟩ := take_eq_setSlot p task
  rw [hq]
  have hs := h.sound
  exact {
    sound := ⟨hs.ids, hs.below, hs.counted, hs.staffed, hs.awake, hs.alarmed, hs.halted⟩
    notices := h.notices
    growing := h.growing
    spawning := h.spawning
    alarms := h.alarms
    occupied := h.occupied
    keys := hkeys.trans h.keys
    staff := h.staff
    numbered := h.numbered
    grown := h.grown }

end SessionDispatch.Pool
