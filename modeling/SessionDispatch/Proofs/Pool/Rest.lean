import SessionDispatch.Proofs.Pool.Sound

/-!
# A pool comes to rest

Each act of the pool's own brings it nearer to a state in which it has nothing more to do. In that
state no task is in line, all workers sleep, and if the pool is stopping all have gone: no task is
forgotten because a worker was not woken.
-/

namespace SessionDispatch.Pool

variable {α : Type} {p p' : Pool α}

/-- The part of the effort that is not with the workers. -/
def backlog (p : Pool α) : Nat :=
  2 * p.notices + 3 * p.growing + (if p.spawning then 2 else 0) + p.alarms + 4 * p.queue.length

theorem effort_eq (p : Pool α) : p.effort = p.backlog + p.tally (Work.effort p.stopping) := rfl

theorem effort_lt_of_moves {worker : Nat} {x y : Work} (hm : Moves p p' worker x y)
    (hst : p'.stopping = p.stopping)
    (h : p'.backlog + y.effort p.stopping < p.backlog + x.effort p.stopping) :
    p'.effort < p.effort := by
  have ht := hm.tally (Work.effort p.stopping)
  rw [effort_eq, effort_eq, hst]
  omega

theorem tally_rouse_le (p : Pool α) {f : Work → Nat} (hf : f .idle ≤ f .asleep) :
    p.rouse.tally f ≤ p.tally f := by
  unfold tally rouse
  dsimp only
  induction p.workers with
  | nil => exact Nat.le_refl _
  | cons w ws ih =>
      simp only [List.map_cons, List.sum_cons]
      refine Nat.add_le_add ?_ ih
      split_ifs with hw
      · rw [hw]
        exact hf
      · exact Nat.le_refl _

theorem tally_spawn (p : Pool α) (f : Work → Nat) :
    (p.spawn true).tally f = p.tally f + f .idle := by
  change ((p.workers ++ [(p.nextWorker, Work.idle)]).map fun w => f w.2).sum = _
  rw [List.map_append, List.sum_append]
  rfl

/-- An act of the pool's own leaves less to be done. -/
theorem effort_act_lt (hs : p.Sound) {a : Act α} (hown : a.isOwn = true) (ha : p.act a = some p') :
    p'.effort < p.effort := by
  cases a with
  | submit => cases hown
  | stop => cases hown
  | takeHandles => cases hown
  | take task => cases hown
  | notify woken =>
      obtain ⟨hz, ⟨w, hw, rfl⟩ | ⟨-, rfl⟩⟩ := act_notify ha
      · refine effort_lt_of_moves
          (moves_setWork (p := { p with notices := p.notices - 1 }) hs.ids hw .idle) rfl ?_
        dsimp only [backlog, setWork, Work.effort]
        omega
      · dsimp only [effort]
        omega
  | grow =>
      obtain ⟨hz, hsp, rfl⟩ := act_grow ha
      dsimp only [effort, Pool.grow]
      rw [hsp]
      cases p.stopping <;>
        simp only [Bool.not_true, Bool.not_false, Bool.false_eq_true, if_true, if_false] <;>
        omega
  | spawn started =>
      obtain ⟨hsp, rfl⟩ := act_spawn ha
      cases started with
      | false =>
          dsimp only [effort, Pool.spawn]
          simp only [hsp, Bool.false_eq_true, if_false, if_true]
          omega
      | true =>
          have ht := tally_spawn p (Work.effort p.stopping)
          have hb : (p.spawn true).backlog + 2 = p.backlog := by
            dsimp only [backlog, Pool.spawn]
            simp only [hsp, Bool.false_eq_true, if_false, if_true]
            omega
          have hi : Work.effort p.stopping .idle = 1 := rfl
          change (p.spawn true).backlog + (p.spawn true).tally (Work.effort p.stopping) <
            p.backlog + p.tally (Work.effort p.stopping)
          omega
  | start worker =>
      obtain ⟨task, rest, hw, hq, rfl⟩ := act_start ha
      refine effort_lt_of_moves
        (moves_setWork (p := { p with queue := rest }) hs.ids hw (.running task)) rfl ?_
      dsimp only [backlog, setWork, Work.effort]
      rw [hq, List.length_cons]
      omega
  | sleep worker =>
      obtain ⟨hw, hst, -, rfl⟩ := act_sleep ha
      refine effort_lt_of_moves (moves_setWork hs.ids hw .asleep) rfl ?_
      dsimp only [backlog, setWork, Work.effort]
      simp only [hst, Bool.false_eq_true, if_false]
      omega
  | finish worker outcome =>
      obtain ⟨task, hw, rfl⟩ := act_finish ha
      refine effort_lt_of_moves (moves_setWork (p := p.setSlot task _) hs.ids hw _) rfl ?_
      exact Nat.lt_succ_self _
  | close worker =>
      obtain ⟨task, hw, rfl⟩ := act_close ha
      refine effort_lt_of_moves (moves_setWork (p := p.setSlot task _) hs.ids hw _) rfl ?_
      exact Nat.lt_succ_self _
  | release worker =>
      obtain ⟨task, hw, rfl⟩ := act_release ha
      refine effort_lt_of_moves (y := .idle)
        ⟨_, perm_filter hs.ids hw, List.perm_append_singleton ..⟩ rfl ?_
      exact Nat.lt_succ_self _
  | exit worker =>
      obtain ⟨hw, -, -, rfl⟩ := act_exit ha
      have hp := ((perm_filter hs.ids hw).map fun w => Work.effort p.stopping w.2).sum_eq
      rw [List.map_cons, List.sum_cons] at hp
      have hi : Work.effort p.stopping .idle = 1 := rfl
      rw [effort_eq, effort_eq]
      dsimp only [backlog, tally] at hp ⊢
      omega
  | rouse =>
      obtain ⟨hz, rfl⟩ := act_rouse ha
      -- Alarms are raised by shutdowns alone, and a worker of a pool that is stopping cannot go
      -- back to sleep.
      have hst := hs.halted hz
      have ht : p.rouse.tally (Work.effort p.stopping) ≤ p.tally (Work.effort p.stopping) := by
        refine tally_rouse_le p ?_
        rw [hst]
        decide
      have hb : p.rouse.backlog < p.backlog := by
        dsimp only [backlog, Pool.rouse]
        omega
      change p.rouse.backlog + p.rouse.tally (Work.effort p.stopping) <
        p.backlog + p.tally (Work.effort p.stopping)
      omega

/-- So the pool's own acts come to an end. -/
theorem length_add_effort_le (hs : p.Sound) {acts : List (Act α)}
    (hown : ∀ a ∈ acts, a.isOwn = true) (hr : p.run acts = some p') :
    acts.length + p'.effort ≤ p.effort := by
  induction acts generalizing p with
  | nil =>
      obtain rfl := Option.some.inj hr
      exact Nat.le_of_eq (Nat.zero_add _)
  | cons a acts ih =>
      obtain ⟨q, ha, hq⟩ := Run.foldlM_cons_eq_some hr
      have hlt := effort_act_lt hs (hown a List.mem_cons_self) ha
      have hle := ih (hs.act ha) (fun b hb => hown b (List.mem_cons_of_mem _ hb)) hq
      rw [List.length_cons]
      omega

/-- The pool has nothing more to do of its own. -/
def Rests (p : Pool α) : Prop := ∀ a : Act α, a.isOwn = true → p.act a = none

namespace Rests

variable (hs : p.Sound) (hr : p.Rests)
include hs hr

theorem notices_eq : p.notices = 0 := by
  by_contra hz
  by_cases hw : ∃ w ∈ p.workers, w.2 = .asleep
  · obtain ⟨w, hm, hw⟩ := hw
    have hn := hr (.notify (some w.1)) rfl
    have hwork : p.workOf? w.1 = some .asleep := workOf?_of_mem hs.ids (hw ▸ hm)
    dsimp only [act] at hn
    rw [if_neg hz] at hn
    cases (if_pos hwork).symm.trans hn
  · have hn := hr (.notify none) rfl
    dsimp only [act] at hn
    rw [if_neg hz, if_neg] at hn
    · cases hn
    · intro hany
      obtain ⟨w, hm, hw'⟩ := List.any_eq_true.mp hany
      exact hw ⟨w, hm, of_decide_eq_true hw'⟩

omit hs in
theorem alarms_eq : p.alarms = 0 := by
  by_contra hz
  have hn := hr .rouse rfl
  dsimp only [act] at hn
  rw [if_neg hz] at hn
  cases hn

omit hs in
theorem asleep_of_nodup (hn : (p.workers.map (·.1)).Nodup) : ∀ w ∈ p.workers, w.2 = .asleep := by
  intro w hm
  have hwork : p.workOf? w.1 = some w.2 := workOf?_of_mem hn hm
  cases hw : w.2 with
  | asleep => rfl
  | idle =>
      rw [hw] at hwork
      cases hq : p.queue with
      | cons task rest =>
          have hn := hr (.start w.1) rfl
          simp [act, hwork, hq] at hn
      | nil =>
          cases hst : p.stopping with
          | true =>
              have hn := hr (.exit w.1) rfl
              simp [act, hwork, hq, hst] at hn
          | false =>
              have hn := hr (.sleep w.1) rfl
              simp [act, hwork, hq, hst] at hn
  | running task =>
      rw [hw] at hwork
      have hn := hr (.finish w.1 (.error "")) rfl
      simp [act, hwork] at hn
  | sent task =>
      rw [hw] at hwork
      have hn := hr (.close w.1) rfl
      simp [act, hwork] at hn
  | ending task =>
      rw [hw] at hwork
      have hn := hr (.release w.1) rfl
      simp [act, hwork] at hn

theorem asleep : ∀ w ∈ p.workers, w.2 = .asleep := hr.asleep_of_nodup hs.ids

/-- At rest all workers sleep, so that no task can be left in line. -/
theorem queue_eq : p.queue = [] := by
  have hsleep := asleep hs hr
  have hidle : p.count Work.isIdle = 0 := count_eq_zero.mpr fun w hw => by rw [hsleep w hw]; rfl
  by_contra hq
  have hw : p.workers ≠ [] := hs.staffed.resolve_right fun h => hq h.2
  obtain ⟨w, ws, hws⟩ := List.exists_cons_of_ne_nil hw
  rcases hs.awake with ha | ha
  · have hno := count_eq_zero.mp ha w (hws ▸ List.mem_cons_self)
    rw [hsleep w (hws ▸ List.mem_cons_self)] at hno
    cases hno
  · rw [notices_eq hs hr, hidle] at ha
    exact hq (List.length_eq_zero_iff.mp (Nat.le_zero.mp ha))

/-- A pool that is stopping rests only when its workers have gone. -/
theorem workers_eq (hst : p.stopping = true) : p.workers = [] := by
  have hsleep := asleep hs hr
  have ha := count_eq_zero.mp (hs.alarmed hst hr.alarms_eq)
  refine List.eq_nil_iff_forall_not_mem.mpr fun w hw => ?_
  have hno := ha w hw
  rw [hsleep w hw] at hno
  cases hno

end Rests

/-! ## Settling -/

section Settle

variable {ending? : Nat → Nat → Option (Outcome α)}

theorem isOwn_of_due? {a : Act α} (h : p.due? ending? = some a) : a.isOwn = true := by
  unfold due? at h
  split at h
  · obtain rfl := Option.some.inj h
    rfl
  split at h
  · obtain rfl := Option.some.inj h
    rfl
  split at h
  · obtain rfl := Option.some.inj h
    rfl
  split at h
  · obtain rfl := Option.some.inj h
    rfl
  obtain ⟨⟨w, work⟩, -, hw⟩ := List.exists_of_findSome?_eq_some h
  cases work with
  | idle =>
      obtain rfl := Option.some.inj hw
      split_ifs <;> rfl
  | asleep => cases hw
  | running task =>
      obtain ⟨o, -, rfl⟩ := Option.map_eq_some_iff.mp hw
      rfl
  | sent task =>
      obtain rfl := Option.some.inj hw
      rfl
  | ending task =>
      obtain rfl := Option.some.inj hw
      rfl

/-- A pool that has settled has nothing due. -/
theorem settle_done (hs : p.Sound) :
    ((p.settle ending?).due? ending?).bind (p.settle ending?).act = none := by
  have hwithin : ∀ limit (p : Pool α), p.Sound → p.effort ≤ limit →
      ((settleWithin ending? limit p).due? ending?).bind (settleWithin ending? limit p).act =
        none := by
    intro limit
    induction limit with
    | zero =>
        intro p hs hle
        refine Option.eq_none_iff_forall_not_mem.mpr fun q hq => ?_
        obtain ⟨a, hd, ha⟩ := Option.bind_eq_some_iff.mp hq
        have hlt := effort_act_lt hs (isOwn_of_due? hd) ha
        omega
    | succ limit ih =>
        intro p hs hle
        unfold settleWithin
        split
        · rename_i q hq
          obtain ⟨a, hd, ha⟩ := Option.bind_eq_some_iff.mp hq
          have hlt := effort_act_lt hs (isOwn_of_due? hd) ha
          exact ih q (hs.act ha) (by omega)
        · rename_i hnone
          exact hnone
  exact hwithin p.effort p hs (Nat.le_refl _)

end Settle

end SessionDispatch.Pool
