import SessionDispatch.Proofs.Pool.Drain

/-!
# Pools whose tasks go on

Between the calls that reach it from outside a pool settles: wake-ups are used, workers are added,
tasks are started, and whoever finds nothing sleeps. Tasks that run go on meanwhile, so what is
settled is told by the tasks that are live, by the workers there are, and by what every task has
left for its handle.
-/

namespace SessionDispatch.Pool

variable {α : Type}

namespace Work

def task? : Work → Option Nat
  | idle | asleep => none
  | running t | sent t | ending t => some t

/-- Whether a worker has a task that was ended already. -/
def isParting : Work → Bool
  | sent _ | ending _ => true
  | idle | asleep | running _ => false

theorem isBusy_eq_isSome (w : Work) : w.isBusy = w.task?.isSome := by cases w <;> rfl

end Work

def held (p : Pool α) : List Nat := p.workers.filterMap (·.2.task?)

def live (p : Pool α) : List Nat := p.queue ++ p.held

/-- No worker has a task that was ended already. -/
def Steady (p : Pool α) : Prop := ∀ w ∈ p.workers, w.2.isParting = false

/-- The workers that there are, or will be when all submissions have done their part. -/
def crew (p : Pool α) : Nat :=
  p.handles.length + (if p.spawning then 1 else 0) + if p.stopping then 0 else p.growing

theorem length_held (p : Pool α) : p.held.length = p.count Work.isBusy := by
  unfold held count
  induction p.workers with
  | nil => rfl
  | cons w ws ih =>
      rw [List.filterMap_cons, List.countP_cons, Work.isBusy_eq_isSome]
      cases w.2.task? with
      | none => simpa using ih
      | some t => simpa using ih

/-- The pool's count of outstanding tasks is the number of live ones. -/
theorem Sound.length_live {p : Pool α} (hs : p.Sound) : p.live.length = p.outstanding := by
  rw [live, List.length_append, length_held, hs.counted]

theorem Moves.held {p p' : Pool α} {worker : Nat} {x y : Work} (hm : Moves p p' worker x y) :
    ∃ rest, p.held.Perm (x.task?.toList ++ rest) ∧ p'.held.Perm (y.task?.toList ++ rest) := by
  obtain ⟨others, hp, hp'⟩ := hm
  have hcons : ∀ z : Work, ((worker, z) :: others).filterMap (·.2.task?) =
      z.task?.toList ++ others.filterMap (·.2.task?) := by
    intro z
    rw [List.filterMap_cons]
    cases z.task? <;> rfl
  refine ⟨others.filterMap (·.2.task?), ?_, ?_⟩
  · exact (hp.filterMap _).trans (.of_eq (hcons x))
  · exact (hp'.filterMap _).trans (.of_eq (hcons y))

theorem Moves.steady {p p' : Pool α} {worker : Nat} {x y : Work} (hm : Moves p p' worker x y)
    (hp : p.Steady) (hy : y.isParting = false) : p'.Steady := by
  obtain ⟨others, hperm, hperm'⟩ := hm
  intro w hw
  rcases List.mem_cons.mp (hperm'.mem_iff.mp hw) with rfl | hw
  · exact hy
  · exact hp w (hperm.mem_iff.mpr (List.mem_cons_of_mem _ hw))

/-! ## What a pool does while its tasks go on -/

/-- What has become of a pool by acts of its own that end no task. -/
structure Onward (p q : Pool α) : Prop where
  sound : q.Sound
  steady : q.Steady
  live : q.live.Perm p.live
  slots : q.slots = p.slots
  nextTask : q.nextTask = p.nextTask
  threshold : q.threshold = p.threshold
  stopping : q.stopping = p.stopping
  crew : q.crew = p.crew
  grown : ∃ k, q.nextWorker = p.nextWorker + k ∧ q.handles.length = p.handles.length + k ∧
    q.metrics.length = p.metrics.length + k
  staff : p.stopping = false → p.staff.Perm p.handles → q.staff.Perm q.handles

namespace Onward

variable {p q r : Pool α}

theorem refl (hs : p.Sound) (hp : p.Steady) : Onward p p where
  sound := hs
  steady := hp
  live := .refl _
  slots := rfl
  nextTask := rfl
  threshold := rfl
  stopping := rfl
  crew := rfl
  grown := ⟨0, rfl, rfl, rfl⟩
  staff := fun _ h => h

theorem trans (h : Onward p q) (h' : Onward q r) : Onward p r where
  sound := h'.sound
  steady := h'.steady
  live := h'.live.trans h.live
  slots := h'.slots.trans h.slots
  nextTask := h'.nextTask.trans h.nextTask
  threshold := h'.threshold.trans h.threshold
  stopping := h'.stopping.trans h.stopping
  crew := h'.crew.trans h.crew
  grown := by
    obtain ⟨k, hnext, hhandles, hmetrics⟩ := h.grown
    obtain ⟨l, hnext', hhandles', hmetrics'⟩ := h'.grown
    exact ⟨k + l, by omega, by omega, by omega⟩
  staff := fun hst hp => h'.staff (h.stopping.trans hst) (h.staff hst hp)

/-- A worker goes on to something else, and nothing else of the pool changes but the line and
the wake-ups. -/
theorem of_moves {worker : Nat} {x y : Work} (hs : q.Sound) (hp : p.Steady)
    (hm : Moves p q worker x y) (hy : y.isParting = false) (hlive : q.live.Perm p.live)
    (hq : q = { p with queue := q.queue, notices := q.notices, workers := q.workers }) :
    Onward p q where
  sound := hs
  steady := hm.steady hp hy
  live := hlive
  slots := by rw [hq]
  nextTask := by rw [hq]
  threshold := by rw [hq]
  stopping := by rw [hq]
  crew := by rw [hq]; rfl
  grown := ⟨0, by rw [hq]; rfl, by rw [hq]; rfl, by rw [hq]; rfl⟩
  staff := by
    intro _ hstaff
    have hids : q.staff.Perm p.staff := hm.ids
    have hhandles : q.handles = p.handles := by rw [hq]
    exact hhandles ▸ hids.trans hstaff

theorem notify (hs : p.Sound) (hp : p.Steady) {woken : Option Nat}
    (h : p.act (.notify woken) = some q) :
    Onward p q := by
  have hq := hs.notify h
  obtain ⟨-, ⟨w, hw, rfl⟩ | ⟨-, rfl⟩⟩ := act_notify h
  · have hm : Moves p ({ p with notices := p.notices - 1 }.setWork w .idle) w .asleep .idle :=
      moves_setWork (p := { p with notices := p.notices - 1 }) hs.ids hw .idle
    obtain ⟨rest, hheld, hheld'⟩ := hm.held
    exact of_moves hq hp hm rfl ((hheld'.trans hheld.symm).append_left p.queue) rfl
  · exact ⟨hq, hp, .refl _, rfl, rfl, rfl, rfl, rfl, ⟨0, rfl, rfl, rfl⟩, fun _ h => h⟩

theorem start {worker : Nat} (hs : p.Sound) (hp : p.Steady) (h : p.act (.start worker) = some q) :
    Onward p q := by
  have hsound := hs.start h
  obtain ⟨task, rest, hw, hq, rfl⟩ := act_start h
  have hm : Moves p ({ p with queue := rest }.setWork worker (.running task)) worker .idle
      (.running task) :=
    moves_setWork (p := { p with queue := rest }) hs.ids hw (.running task)
  obtain ⟨others, hheld, hheld'⟩ := hm.held
  have hlive : (rest ++ ({ p with queue := rest }.setWork worker (.running task)).held).Perm
      (p.queue ++ p.held) := by
    rw [hq]
    have hnew := (hheld'.append_left rest).trans List.perm_middle
    exact hnew.trans ((hheld.symm.append_left rest).cons task)
  exact of_moves hsound hp hm rfl hlive rfl

theorem sleep {worker : Nat} (hs : p.Sound) (hp : p.Steady) (h : p.act (.sleep worker) = some q) :
    Onward p q := by
  have hsound := hs.sleep h
  obtain ⟨hw, -, -, rfl⟩ := act_sleep h
  have hm := moves_setWork hs.ids hw .asleep
  obtain ⟨rest, hheld, hheld'⟩ := hm.held
  exact of_moves hsound hp hm rfl ((hheld'.trans hheld.symm).append_left p.queue) rfl

theorem grow (hs : p.Sound) (hp : p.Steady) (h : p.act .grow = some q) : Onward p q := by
  obtain ⟨hz, hsp, rfl⟩ := act_grow h
  have hcrew : p.grow.crew = p.crew := by
    unfold Pool.crew Pool.grow
    cases hst : p.stopping with
    | true => simp [hsp]
    | false =>
        simp only [hsp, Bool.not_false, if_true, Bool.false_eq_true, if_false]
        omega
  exact ⟨hs.grow, hp, .refl _, rfl, rfl, rfl, rfl, hcrew, ⟨0, rfl, rfl, rfl⟩, fun _ h => h⟩

theorem spawn (hs : p.Sound) (hp : p.Steady) (h : p.act (.spawn true) = some q) : Onward p q := by
  obtain ⟨hsp, rfl⟩ := act_spawn h
  have hworkers : (p.spawn true).workers = p.workers ++ [(p.nextWorker, .idle)] := rfl
  have hhandles : (p.spawn true).handles = p.handles ++ [p.nextWorker] := rfl
  have hheld : (p.spawn true).held = p.held := by
    rw [held, hworkers, List.filterMap_append]
    exact List.append_nil _
  have hcrew : (p.spawn true).crew = p.crew := by
    rw [Pool.crew, Pool.crew, hhandles, hsp, List.length_append]
    rfl
  have hsteady : (p.spawn true).Steady := by
    intro w hw
    rcases List.mem_append.mp (hworkers ▸ hw) with hw | hw
    · exact hp w hw
    · rw [List.mem_singleton.mp hw]
      rfl
  have hmetrics : (p.spawn true).metrics = p.metrics ++ [.poolGrew (p.handles.length + 1)] := rfl
  refine ⟨hs.spawn true, hsteady, ?_, rfl, rfl, rfl, rfl, hcrew, ⟨1, rfl, ?_, ?_⟩, ?_⟩
  · rw [Pool.live, hheld]
    exact .refl _
  · rw [hhandles, List.length_append]
    rfl
  · rw [hmetrics, List.length_append]
    rfl
  · intro _ hstaff
    rw [Pool.staff, hworkers, hhandles, List.map_append]
    exact hstaff.append_right _

theorem exit {worker : Nat} (hs : p.Sound) (hp : p.Steady) (h : p.act (.exit worker) = some q) :
    Onward p q := by
  have hsound := hs.exit h
  obtain ⟨hw, hst, -, rfl⟩ := act_exit h
  have hheld : p.held.Perm ((p.workers.filter (·.1 ≠ worker)).filterMap (·.2.task?)) :=
    (perm_filter hs.ids hw).filterMap _
  refine ⟨hsound, fun w hw => hp w (List.mem_of_mem_filter hw), hheld.symm.append_left p.queue, rfl,
    rfl, rfl, rfl, rfl,
    ⟨0, rfl, rfl, rfl⟩, ?_⟩
  intro hopen
  exact absurd (hopen.symm.trans hst) (by decide)

theorem rouse (hs : p.Sound) (hp : p.Steady) (h : p.act .rouse = some q) : Onward p q := by
  have hsound := hs.rouse h
  obtain ⟨-, rfl⟩ := act_rouse h
  have hheld : p.rouse.held = p.held := by
    unfold held Pool.rouse
    rw [List.filterMap_map]
    refine List.filterMap_congr fun w _ => ?_
    simp only [Function.comp_apply]
    split_ifs with hw
    · rw [hw]
      rfl
    · rfl
  have hsteady : p.rouse.Steady := by
    intro w hw
    obtain ⟨v, hv, rfl⟩ := List.mem_map.mp hw
    dsimp only
    split_ifs
    · rfl
    · exact hp v hv
  have hstaff : p.rouse.staff = p.staff := ids_rouse p
  refine ⟨hsound, hsteady, .of_eq (congrArg (p.queue ++ ·) hheld), rfl, rfl, rfl, rfl, rfl,
    ⟨0, rfl, rfl, rfl⟩, ?_⟩
  intro _ h
  rw [hstaff]
  exact h

end Onward

/-! ## Settling -/

section Settle

variable {p q : Pool α}

/-- What is due can be done. -/
theorem exists_act_of_due? {ending? : Nat → Nat → Option (Outcome α)} (hs : p.Sound) {a : Act α}
    (hd : p.due? ending? = some a) : ∃ q, p.act a = some q := by
  unfold due? at hd
  split at hd
  · rename_i hnotices
    obtain rfl := Option.some.inj hd
    cases hf : p.workers.find? (·.2 = .asleep) with
    | none =>
        have hno : ¬ p.workers.any (·.2 = .asleep) = true := by
          intro hany
          obtain ⟨w, hm, hw⟩ := List.any_eq_true.mp hany
          exact List.find?_eq_none.mp hf w hm hw
        exact ⟨_, (if_neg hnotices).trans (if_neg hno)⟩
    | some w =>
        have hasleep := List.find?_some hf
        have hw : p.workOf? w.1 = some .asleep :=
          workOf?_of_mem hs.ids (of_decide_eq_true hasleep ▸ List.mem_of_find?_eq_some hf)
        exact ⟨_, (if_neg hnotices).trans (if_pos hw)⟩
  split at hd
  · rename_i hspawning
    obtain rfl := Option.some.inj hd
    exact ⟨_, if_pos hspawning⟩
  rename_i hspawning
  split at hd
  · rename_i hgrowing
    obtain rfl := Option.some.inj hd
    exact ⟨_, if_neg (not_or.mpr ⟨hgrowing, hspawning⟩)⟩
  split at hd
  · rename_i halarms
    obtain rfl := Option.some.inj hd
    exact ⟨_, if_neg halarms⟩
  obtain ⟨⟨w, work⟩, hm, hw⟩ := List.exists_of_findSome?_eq_some hd
  have hwork : p.workOf? w = some work := workOf?_of_mem hs.ids hm
  cases work with
  | asleep => cases hw
  | idle =>
      obtain rfl := Option.some.inj hw
      cases hq : p.queue with
      | cons task rest => simp [act, hwork, hq]
      | nil => cases hst : p.stopping <;> simp [act, hwork, hq, hst]
  | running task =>
      obtain ⟨o, -, rfl⟩ := Option.map_eq_some_iff.mp hw
      simp [act, hwork]
  | sent task =>
      obtain rfl := Option.some.inj hw
      simp [act, hwork]
  | ending task =>
      obtain rfl := Option.some.inj hw
      simp [act, hwork]

/-- While tasks go on, what is due ends none. -/
theorem Onward.of_due (hs : p.Sound) (hp : p.Steady) {a : Act α}
    (hd : p.due? (fun _ _ => none) = some a) (ha : p.act a = some q) : Onward p q := by
  unfold due? at hd
  split at hd
  · obtain rfl := Option.some.inj hd
    exact .notify hs hp ha
  split at hd
  · obtain rfl := Option.some.inj hd
    exact .spawn hs hp ha
  split at hd
  · obtain rfl := Option.some.inj hd
    exact .grow hs hp ha
  split at hd
  · obtain rfl := Option.some.inj hd
    exact .rouse hs hp ha
  obtain ⟨⟨w, work⟩, hm, hw⟩ := List.exists_of_findSome?_eq_some hd
  have hsteady := hp _ hm
  cases work with
  | asleep => cases hw
  | running task => cases hw
  | sent task => cases hsteady
  | ending task => cases hsteady
  | idle =>
      obtain rfl := Option.some.inj hw
      split_ifs at ha
      · exact .start hs hp ha
      · exact .exit hs hp ha
      · exact .sleep hs hp ha

theorem Onward.settle (hs : p.Sound) (hp : p.Steady) : Onward p (p.settle fun _ _ => none) := by
  unfold Pool.settle
  generalize p.effort = limit
  induction limit generalizing p with
  | zero => exact .refl hs hp
  | succ limit ih =>
      unfold settleWithin
      split
      · rename_i q hq
        obtain ⟨a, hd, ha⟩ := Option.bind_eq_some_iff.mp hq
        have hstep := Onward.of_due hs hp hd ha
        exact hstep.trans (ih hstep.sound hstep.steady)
      · exact .refl hs hp

/-- A pool that has nothing to do while its tasks go on. -/
structure Settled (p : Pool α) : Prop where
  sound : p.Sound
  notices : p.notices = 0
  growing : p.growing = 0
  spawning : p.spawning = false
  alarms : p.alarms = 0
  occupied : ∀ w ∈ p.workers, w.2 = .asleep ∨ ∃ t, w.2 = .running t

theorem settled_settle (hs : p.Sound) (hp : p.Steady) : (p.settle fun _ _ => none).Settled := by
  have hon := Onward.settle hs hp
  have hdone : ((p.settle fun _ _ => none).due? fun _ _ => none).bind
      (p.settle fun _ _ => none).act = none :=
    settle_done hs
  generalize p.settle (fun _ _ => none) = q at hon hdone
  have hdue : q.due? (fun _ _ => none) = none := by
    cases hd : q.due? fun _ _ => none with
    | none => rfl
    | some a =>
        obtain ⟨r, hr⟩ := exists_act_of_due? hon.sound hd
        rw [hd, Option.bind_some, hr] at hdone
        cases hdone
  unfold due? at hdue
  split at hdue
  · cases hdue
  rename_i hnotices
  split at hdue
  · cases hdue
  rename_i hspawning
  split at hdue
  · cases hdue
  rename_i hgrowing
  split at hdue
  · cases hdue
  rename_i halarms
  refine ⟨hon.sound, not_not.mp hnotices, not_not.mp hgrowing, Bool.eq_false_iff.mpr hspawning,
    not_not.mp halarms, ?_⟩
  intro w hw
  have hnone := List.findSome?_eq_none_iff.mp hdue w hw
  obtain ⟨n, work⟩ := w
  cases work with
  | asleep => exact .inl rfl
  | running t => exact .inr ⟨t, rfl⟩
  | idle => cases hnone
  | sent t => cases hnone
  | ending t => cases hnone

end Settle

namespace Settled

variable {p : Pool α}

theorem steady (h : p.Settled) : p.Steady := by
  intro w hw
  obtain hw | ⟨t, hw⟩ := h.occupied w hw <;> rw [hw] <;> rfl

theorem crew_eq (h : p.Settled) : p.crew = p.workerCount := by
  simp [crew, workerCount, h.spawning, h.growing]

theorem count_idle (h : p.Settled) : p.count Work.isIdle = 0 := by
  refine count_eq_zero.mpr fun w hw => ?_
  obtain hw | ⟨t, hw⟩ := h.occupied w hw <;> rw [hw] <;> rfl

theorem running_of_not_asleep (h : p.Settled) (hno : p.count Work.isAsleep = 0) :
    ∀ w ∈ p.workers, ∃ t, w.2 = .running t := by
  intro w hw
  refine (h.occupied w hw).resolve_left fun hs => ?_
  have hfalse := count_eq_zero.mp hno w hw
  rw [hs] at hfalse
  cases hfalse

/-- As long as a task is in line, all workers run one. -/
theorem running_of_queue (h : p.Settled) (hq : p.queue ≠ []) :
    ∀ w ∈ p.workers, ∃ t, w.2 = .running t := by
  apply h.running_of_not_asleep
  refine h.sound.awake.resolve_right fun hle => ?_
  rw [h.notices, h.count_idle] at hle
  exact hq (List.length_eq_zero_iff.mp (Nat.le_zero.mp hle))

theorem running_of_stopping (h : p.Settled) (hst : p.stopping = true) :
    ∀ w ∈ p.workers, ∃ t, w.2 = .running t :=
  h.running_of_not_asleep (h.sound.alarmed hst h.alarms)

theorem mem_held_iff (h : p.Settled) {t : Nat} :
    t ∈ p.held ↔ ∃ w, (w, Work.running t) ∈ p.workers := by
  unfold held
  rw [List.mem_filterMap]
  constructor
  · rintro ⟨⟨w, work⟩, hw, ht⟩
    obtain hwork | ⟨t', hwork⟩ := h.occupied _ hw
    · rw [show work = .asleep from hwork] at ht
      cases ht
    · obtain rfl : work = .running t' := hwork
      obtain rfl := Option.some.inj ht
      exact ⟨w, hw⟩
  · rintro ⟨w, hw⟩
    exact ⟨_, hw, rfl⟩

/-- No task is in line as long as there are enough workers. -/
theorem queue_eq_nil (h : p.Settled) (hle : p.live.length ≤ p.workers.length) : p.queue = [] := by
  by_contra hq
  have hrun := h.running_of_queue hq
  have hall : p.held.length = p.workers.length := by
    rw [length_held]
    refine List.countP_eq_length.mpr fun w hw => ?_
    obtain ⟨t, ht⟩ := hrun w hw
    rw [ht]
    rfl
  have hpos : 0 < p.queue.length := List.length_pos_of_ne_nil hq
  rw [live, List.length_append, hall] at hle
  omega

/-- Where a task is live, some worker runs one. -/
theorem exists_running (h : p.Settled) (hl : p.live ≠ []) : ∃ t ∈ p.held, t ∈ p.live := by
  obtain ⟨t, ht⟩ : ∃ t, t ∈ p.held := by
    by_cases hq : p.queue = []
    · obtain ⟨t, ht⟩ := List.exists_mem_of_ne_nil _ hl
      rw [live, hq, List.nil_append] at ht
      exact ⟨t, ht⟩
    · have hw : p.workers ≠ [] := h.sound.staffed.resolve_right fun hs => hq hs.2
      obtain ⟨w, hw⟩ := List.exists_mem_of_ne_nil _ hw
      obtain ⟨t, ht⟩ := h.running_of_queue hq w hw
      exact ⟨t, h.mem_held_iff.mpr ⟨w.1, ht ▸ hw⟩⟩
  exact ⟨t, ht, List.mem_append_right _ ht⟩

/-- The workers of a pool that is stopping have gone with the last task. -/
theorem workers_eq_nil (h : p.Settled) (hst : p.stopping = true) (hl : p.live = []) :
    p.workers = [] := by
  refine List.eq_nil_iff_forall_not_mem.mpr fun w hw => ?_
  obtain ⟨t, ht⟩ := h.running_of_stopping hst w hw
  have hm : t ∈ p.live := List.mem_append_right _ (h.mem_held_iff.mpr ⟨w.1, ht ▸ hw⟩)
  rw [hl] at hm
  cases hm

end Settled

end SessionDispatch.Pool
