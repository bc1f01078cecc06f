import SessionDispatch.Proofs.Pool.Steps
import SessionDispatch.Proofs.Run

/-!
# What every act of a pool keeps

The count of outstanding tasks is right, there is a worker as long as a task may come, and no task
is left in line while a worker sleeps that nobody is going to wake. From this follows that a pool
comes to rest only when all tasks have ended, and that it does come to rest.
-/

namespace SessionDispatch.Pool

variable {α : Type}

namespace Work

def isIdle : Work → Bool
  | idle => true
  | _ => false

def isAsleep : Work → Bool
  | asleep => true
  | _ => false

end Work

def count (p : Pool α) (P : Work → Bool) : Nat := p.workers.countP (P ·.2)

/-- What every act keeps. While a worker sleeps there is somebody for every task in line: a worker
that looks for one, or a submission that is going to wake one. -/
structure Sound (p : Pool α) : Prop where
  ids : (p.workers.map (·.1)).Nodup
  below : ∀ w ∈ p.workers, w.1 < p.nextWorker
  counted : p.outstanding = p.queue.length + p.count Work.isBusy
  staffed : p.workers ≠ [] ∨ p.stopping = true ∧ p.queue = []
  awake : p.count Work.isAsleep = 0 ∨ p.queue.length ≤ p.notices + p.count Work.isIdle
  alarmed : p.stopping = true → p.alarms = 0 → p.count Work.isAsleep = 0
  halted : p.alarms ≠ 0 → p.stopping = true

section Count

variable {p p' : Pool α} {worker : Nat} {x y : Work}

theorem Moves.count (h : Moves p p' worker x y) (P : Work → Bool) :
    (p'.count P + if P x then 1 else 0) = p.count P + if P y then 1 else 0 := by
  obtain ⟨others, hp, hp'⟩ := h
  unfold Pool.count
  rw [hp.countP_eq, hp'.countP_eq, List.countP_cons, List.countP_cons]
  dsimp only
  omega

theorem Moves.ne_nil (h : Moves p p' worker x y) : p'.workers ≠ [] := by
  obtain ⟨others, -, hp'⟩ := h
  intro hnil
  rw [hnil] at hp'
  exact List.cons_ne_nil _ _ hp'.nil_eq.symm

theorem Moves.below (h : Moves p p' worker x y) {n : Nat} (hb : ∀ w ∈ p.workers, w.1 < n) :
    ∀ w ∈ p'.workers, w.1 < n := by
  intro w hw
  have hm := h.ids.mem_iff.mp (List.mem_map_of_mem hw)
  obtain ⟨v, hv, hid⟩ := List.mem_map.mp hm
  exact hid ▸ hb v hv

theorem count_eq_zero {P : Work → Bool} : p.count P = 0 ↔ ∀ w ∈ p.workers, P w.2 = false := by
  unfold Pool.count
  simp [List.countP_eq_zero]

theorem ids_rouse (p : Pool α) : p.rouse.workers.map (·.1) = p.workers.map (·.1) := by
  simp [rouse, Function.comp_def]

theorem count_asleep_rouse (p : Pool α) : p.rouse.count Work.isAsleep = 0 := by
  refine count_eq_zero.mpr fun w hw => ?_
  obtain ⟨v, -, rfl⟩ := List.mem_map.mp hw
  dsimp only
  split_ifs with hv
  · rfl
  · cases hwork : v.2 <;> simp_all [Work.isAsleep]

/-- To be woken makes no difference to a count that takes those that sleep for those that look for
a task. -/
theorem count_rouse (p : Pool α) {P : Work → Bool} (hP : P .idle = P .asleep) :
    p.rouse.count P = p.count P := by
  unfold count rouse
  rw [List.countP_map]
  refine List.countP_congr fun w _ => ?_
  simp only [Function.comp_apply]
  split_ifs with hw
  · rw [hw, hP]
  · exact Iff.rfl

end Count

theorem sound_new (threads threshold : Nat) : (new threads threshold : Pool α).Sound where
  ids := by
    have hid : (List.range (max threads 1)).map (fun n => ((n, Work.idle) : Nat × Work).1) =
        List.range (max threads 1) := List.map_id _
    simp only [new, withWorkers, List.map_map, Function.comp_def]
    rw [List.map_id']
    exact List.nodup_range
  below := by
    intro w hw
    obtain ⟨n, hn, rfl⟩ := List.mem_map.mp hw
    exact List.mem_range.mp hn
  counted := by
    have hb : (new threads threshold : Pool α).count Work.isBusy = 0 := by
      refine count_eq_zero.mpr fun w hw => ?_
      obtain ⟨n, -, rfl⟩ := List.mem_map.mp hw
      rfl
    rw [hb]
    rfl
  staffed := by
    left
    simp [new, withWorkers]
  awake := .inr (Nat.zero_le _)
  alarmed := nofun
  halted := fun h => absurd rfl h

theorem submit_of_stopping {p : Pool α} (h : p.stopping = true) :
    p.submit = (.error .poolClosed, p) :=
  if_pos h

theorem submit_of_open {p : Pool α} (h : p.stopping = false) :
    ∃ growing, p.submit = (.ok p.nextTask, { p with
      queue := p.queue ++ [p.nextTask]
      outstanding := p.outstanding + 1
      nextTask := p.nextTask + 1
      notices := p.notices + 1
      growing
      slots := p.slots ++ [(p.nextTask, {})] }) :=
  ⟨_, if_neg (by simp [h])⟩

namespace Sound

variable {p p' : Pool α} {worker : Nat}

/-- A worker goes on to something else. The count and the promise to wake are kept if what the
worker was and is makes up for what goes from the line and from the wake-ups to come. -/
theorem of_moves (hs : p.Sound) {x y : Work} (hm : Moves p p' worker x y)
    (hnext : p'.nextWorker = p.nextWorker) (hstop : p'.stopping = p.stopping)
    (halarms : p'.alarms = p.alarms) (hy : y.isAsleep = false)
    (hcounted : p'.outstanding + p.queue.length + (if x.isBusy then 1 else 0) =
      p.outstanding + p'.queue.length + if y.isBusy then 1 else 0)
    (hawake : p'.queue.length + p.notices + (if x.isIdle then 1 else 0) ≤
      p.queue.length + p'.notices + if y.isIdle then 1 else 0) : p'.Sound := by
  have hasleep := hm.count Work.isAsleep
  rw [hy, if_neg Bool.false_ne_true] at hasleep
  exact {
    ids := hm.ids.nodup_iff.mpr hs.ids
    below := hnext ▸ hm.below hs.below
    counted := by
      have hb := hm.count Work.isBusy
      have hc := hs.counted
      omega
    staffed := .inl hm.ne_nil
    awake := by
      have hi := hm.count Work.isIdle
      rcases hs.awake with ha | ha
      · left
        omega
      · right
        omega
    alarmed := by
      intro hst hal
      have ha := hs.alarmed (hstop ▸ hst) (halarms ▸ hal)
      omega
    halted := by
      rw [hstop, halarms]
      exact hs.halted }

theorem submit (hs : p.Sound) : p.submit.2.Sound := by
  cases hc : p.stopping with
  | true =>
      rw [submit_of_stopping hc]
      exact hs
  | false =>
      obtain ⟨growing, hp⟩ := submit_of_open hc
      have hb := hs.counted
      have ha := hs.awake
      have hw : p.workers ≠ [] :=
        hs.staffed.resolve_right fun h => absurd (hc.symm.trans h.1) (by decide)
      rw [hp]
      refine ⟨hs.ids, hs.below, ?_, .inl hw, ?_, fun h => absurd (hc.symm.trans h) (by decide),
        hs.halted⟩
      · simp only [List.length_append, List.length_singleton]
        change p.outstanding + 1 = p.queue.length + 1 + p.count Work.isBusy
        omega
      · simp only [List.length_append, List.length_singleton]
        change p.count Work.isAsleep = 0 ∨ p.queue.length + 1 ≤ p.notices + 1 + p.count Work.isIdle
        omega

theorem notify (hs : p.Sound) {woken : Option Nat} (h : p.act (.notify woken) = some p') :
    p'.Sound := by
  obtain ⟨hz, ⟨w, hw, rfl⟩ | ⟨hno, rfl⟩⟩ := act_notify h
  · refine hs.of_moves
      (moves_setWork (p := { p with notices := p.notices - 1 }) hs.ids hw .idle) rfl rfl rfl rfl
      rfl ?_
    change p.queue.length + p.notices + 0 ≤ p.queue.length + (p.notices - 1) + 1
    omega
  · have ha : p.count Work.isAsleep = 0 := by
      refine count_eq_zero.mpr fun w hw => ?_
      have hne := hno w hw
      cases hwork : w.2 <;> simp_all [Work.isAsleep]
    exact ⟨hs.ids, hs.below, hs.counted, hs.staffed, .inl ha, fun _ _ => ha, hs.halted⟩

theorem grow (hs : p.Sound) : p.grow.Sound :=
  ⟨hs.ids, hs.below, hs.counted, hs.staffed, hs.awake, hs.alarmed, hs.halted⟩

theorem spawn (hs : p.Sound) (started : Bool) : (p.spawn started).Sound := by
  cases started with
  | false =>
      exact ⟨hs.ids, fun w hw => Nat.lt_succ_of_lt (hs.below w hw), hs.counted, hs.staffed,
        hs.awake,
        hs.alarmed, hs.halted⟩
  | true =>
      have hcount : ∀ P : Work → Bool, (p.spawn true).count P = p.count P + if P .idle then 1
          else 0 := by
        intro P
        exact List.countP_append.trans (congrArg _ (List.countP_singleton ..))
      have hb := hcount Work.isBusy
      have ha := hcount Work.isAsleep
      have hi := hcount Work.isIdle
      simp only [Work.isBusy, Work.isAsleep, Work.isIdle, Bool.false_eq_true, if_false, if_true]
        at hb ha hi
      have hc := hs.counted
      have hq := hs.awake
      refine ⟨?_, ?_, ?_, .inl (List.append_ne_nil_of_right_ne_nil _ (List.cons_ne_nil _ _)), ?_,
        ?_, hs.halted⟩
      · change ((p.workers ++ [(p.nextWorker, Work.idle)]).map (·.1)).Nodup
        rw [List.map_append, List.nodup_append]
        refine ⟨hs.ids, List.nodup_singleton _, ?_⟩
        rintro id hid _ hn rfl
        obtain ⟨w, hw, hwid⟩ := List.mem_map.mp hid
        have hlt := hs.below w hw
        rw [hwid, List.mem_singleton.mp hn] at hlt
        exact Nat.lt_irrefl _ hlt
      · intro w hw
        rcases List.mem_append.mp hw with hw | hw
        · exact Nat.lt_succ_of_lt (hs.below w hw)
        · rw [List.mem_singleton.mp hw]
          exact Nat.lt_succ_self _
      · change p.outstanding = p.queue.length + _
        omega
      · change _ ∨ p.queue.length ≤ p.notices + _
        omega
      · intro hst hal
        have := hs.alarmed hst hal
        omega

theorem start (hs : p.Sound) (h : p.act (.start worker) = some p') : p'.Sound := by
  obtain ⟨task, rest, hw, hq, rfl⟩ := act_start h
  have hlen : p.queue.length = rest.length + 1 := congrArg List.length hq
  refine hs.of_moves
    (moves_setWork (p := { p with queue := rest }) hs.ids hw (.running task)) rfl rfl rfl rfl ?_ ?_
  · change p.outstanding + p.queue.length + 0 = p.outstanding + rest.length + 1
    omega
  · change rest.length + p.notices + 1 ≤ p.queue.length + p.notices + 0
    omega

theorem sleep (hs : p.Sound) (h : p.act (.sleep worker) = some p') : p'.Sound := by
  obtain ⟨hw, hst, hq, rfl⟩ := act_sleep h
  have hm := moves_setWork hs.ids hw .asleep
  refine ⟨hm.ids.nodup_iff.mpr hs.ids, hm.below hs.below, ?_, .inl hm.ne_nil, .inr ?_,
    fun h => absurd (hst.symm.trans h) (by decide), hs.halted⟩
  · exact hs.counted.trans (congrArg _ (hm.count Work.isBusy).symm)
  · change p.queue.length ≤ _
    rw [hq]
    exact Nat.zero_le _

/-- A worker goes on with its task. -/
theorem of_busy (hs : p.Sound) {x y : Work} (hm : Moves p p' worker x y) (hx : x.isBusy = true)
    (hy : y.isBusy = true) (hp' : p' = { p with workers := p'.workers, slots := p'.slots }) :
    p'.Sound := by
  have hidle : ∀ w : Work, w.isBusy = true → w.isIdle = false ∧ w.isAsleep = false := by
    intro w hw
    cases w with
    | idle => cases hw
    | asleep => cases hw
    | running _ => exact ⟨rfl, rfl⟩
    | sent _ => exact ⟨rfl, rfl⟩
    | ending _ => exact ⟨rfl, rfl⟩
  have hqueue : p'.queue = p.queue := by rw [hp']
  have hnotices : p'.notices = p.notices := by rw [hp']
  have hout : p'.outstanding = p.outstanding := by rw [hp']
  refine hs.of_moves hm (by rw [hp']) (by rw [hp']) (by rw [hp']) (hidle y hy).2 ?_ ?_
  · rw [hqueue, hout, hx, hy]
  · refine Nat.le_of_eq ?_
    rw [hqueue, hnotices, (hidle x hx).1, (hidle y hy).1]

theorem finish (hs : p.Sound) {outcome : Outcome α} (h : p.act (.finish worker outcome) = some p') :
    p'.Sound := by
  obtain ⟨task, hw, rfl⟩ := act_finish h
  exact hs.of_busy (moves_setWork (p := p.setSlot task _) hs.ids hw _) rfl rfl rfl

theorem close (hs : p.Sound) (h : p.act (.close worker) = some p') : p'.Sound := by
  obtain ⟨task, hw, rfl⟩ := act_close h
  exact hs.of_busy (moves_setWork (p := p.setSlot task _) hs.ids hw _) rfl rfl rfl

theorem release (hs : p.Sound) (h : p.act (.release worker) = some p') : p'.Sound := by
  obtain ⟨task, hw, rfl⟩ := act_release h
  have hm : Moves p { p with
      outstanding := p.outstanding - 1
      workers :=
        p.workers.filter (·.1 ≠ worker) ++ [(worker, .idle)] } worker (.ending task) .idle :=
    ⟨_, perm_filter hs.ids hw, List.perm_append_singleton ..⟩
  have hbusy : 0 < p.count Work.isBusy := Nat.lt_of_lt_of_eq (Nat.succ_pos _) (hm.count Work.isBusy)
  have hc := hs.counted
  refine hs.of_moves hm rfl rfl rfl rfl ?_ ?_
  · change p.outstanding - 1 + p.queue.length + 1 = p.outstanding + p.queue.length + 0
    omega
  · exact Nat.le_succ _

theorem exit (hs : p.Sound) (h : p.act (.exit worker) = some p') : p'.Sound := by
  obtain ⟨hw, hst, hq, rfl⟩ := act_exit h
  have hperm := perm_filter hs.ids hw
  have hcount : ∀ P : Work → Bool, p.count P =
      (p.workers.filter (·.1 ≠ worker)).countP (P ·.2) + if P .idle then 1 else 0 := fun P => by
    unfold count
    rw [hperm.countP_eq, List.countP_cons]
  have hsub : (p.workers.filter (·.1 ≠ worker)).Sublist p.workers := List.filter_sublist
  refine ⟨hs.ids.sublist (hsub.map _), fun w hw => hs.below w (hsub.mem hw), ?_, .inr ⟨hst, hq⟩, ?_,
    ?_, hs.halted⟩
  · have hb := hcount Work.isBusy
    simp only [Work.isBusy, Bool.false_eq_true, if_false] at hb
    exact hs.counted.trans (congrArg _ hb)
  · right
    change p.queue.length ≤ _
    rw [hq]
    exact Nat.zero_le _
  · intro _ hal
    have ha := hcount Work.isAsleep
    simp only [Work.isAsleep, Bool.false_eq_true, if_false] at ha
    exact ha.symm.trans (hs.alarmed hst hal)

theorem rouse (hs : p.Sound) (h : p.act .rouse = some p') : p'.Sound := by
  obtain ⟨hal, rfl⟩ := act_rouse h
  refine ⟨(ids_rouse p).symm ▸ hs.ids, ?_, hs.counted.trans (congrArg _ (count_rouse p rfl).symm),
    ?_,
    .inl (count_asleep_rouse p), fun _ _ => count_asleep_rouse p, fun _ => hs.halted hal⟩
  · intro w hw
    obtain ⟨v, hv, rfl⟩ := List.mem_map.mp hw
    exact hs.below v hv
  · refine hs.staffed.imp_left fun hne hnil => hne ?_
    exact List.map_eq_nil_iff.mp hnil

theorem act (hs : p.Sound) {a : Act α} (ha : p.act a = some p') : p'.Sound := by
  cases a with
  | submit =>
      obtain rfl := Option.some.inj ha
      exact hs.submit
  | notify woken => exact hs.notify ha
  | grow =>
      obtain ⟨-, -, rfl⟩ := act_grow ha
      exact hs.grow
  | spawn started =>
      obtain ⟨-, rfl⟩ := act_spawn ha
      exact hs.spawn started
  | start worker => exact hs.start ha
  | sleep worker => exact hs.sleep ha
  | finish worker outcome => exact hs.finish ha
  | close worker => exact hs.close ha
  | release worker => exact hs.release ha
  | exit worker => exact hs.exit ha
  | rouse => exact hs.rouse ha
  | stop =>
      obtain rfl := Option.some.inj ha
      refine ⟨hs.ids, hs.below, hs.counted, hs.staffed.imp_right fun h => ⟨rfl, h.2⟩, hs.awake, ?_,
        fun _ => rfl⟩
      exact fun _ hal => absurd hal (Nat.succ_ne_zero _)
  | takeHandles =>
      obtain ⟨-, -, rfl⟩ := act_takeHandles ha
      exact ⟨hs.ids, hs.below, hs.counted, hs.staffed, hs.awake, hs.alarmed, hs.halted⟩
  | take task =>
      obtain rfl := Option.some.inj ha
      unfold Pool.take
      split
      · exact ⟨hs.ids, hs.below, hs.counted, hs.staffed, hs.awake, hs.alarmed, hs.halted⟩
      · exact hs

theorem run (hs : p.Sound) {acts : List (Act α)} (hr : p.run acts = some p') : p'.Sound :=
  Run.invariant Sound (fun _ _ _ hs ha => hs.act ha) hs hr

end Sound

end SessionDispatch.Pool
