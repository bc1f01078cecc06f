import Mathlib
import SessionDispatch.Pool

/-!
# What one act does to a pool

An act moves at most one worker from one thing to do to another, adds or lets go one, or wakes all
that sleep. `tally` adds up what the workers are worth, whatever is to be counted of them, and
changes by the worth of the worker that moves alone.
-/

namespace SessionDispatch.Pool

variable {α : Type}

def tally (p : Pool α) (f : Work → Nat) : Nat := (p.workers.map fun w => f w.2).sum

/-- One worker goes on to something else, and the others stay at what they do. -/
def Moves (p p' : Pool α) (worker : Nat) (x y : Work) : Prop :=
  ∃ others, p.workers.Perm ((worker, x) :: others) ∧ p'.workers.Perm ((worker, y) :: others)

section Moves

variable {p p' : Pool α} {worker : Nat} {x y : Work}

theorem Moves.tally (h : Moves p p' worker x y) (f : Work → Nat) :
    p'.tally f + f x = p.tally f + f y := by
  obtain ⟨others, hp, hp'⟩ := h
  unfold Pool.tally
  rw [(hp.map _).sum_eq, (hp'.map _).sum_eq]
  simp only [List.map_cons, List.sum_cons]
  omega

theorem Moves.ids (h : Moves p p' worker x y) :
    (p'.workers.map (·.1)).Perm (p.workers.map (·.1)) := by
  obtain ⟨others, hp, hp'⟩ := h
  have h := hp.map Prod.fst
  have h' := hp'.map Prod.fst
  exact h'.trans h.symm

/-- The place of a worker in the list. -/
theorem exists_split (hn : (p.workers.map (·.1)).Nodup) (h : p.workOf? worker = some x) :
    ∃ l r, p.workers = l ++ (worker, x) :: r ∧ (∀ w ∈ l, w.1 ≠ worker) ∧ ∀ w ∈ r, w.1 ≠ worker := by
  obtain ⟨l, r, hlr, hl⟩ := List.lookup_eq_some_iff.mp h
  refine ⟨l, r, hlr, ?_, ?_⟩
  · intro w hw hid
    have hne := hl w hw
    simp [hid] at hne
  · intro w hw hid
    have hm : w.1 ∈ r.map (·.1) := List.mem_map_of_mem hw
    rw [hlr, List.map_append, List.map_cons, List.nodup_append, List.nodup_cons] at hn
    rw [hid] at hm
    exact hn.2.1.1 hm

theorem workOf?_of_mem (hn : (p.workers.map (·.1)).Nodup) (h : (worker, x) ∈ p.workers) :
    p.workOf? worker = some x := by
  obtain ⟨l, r, hlr⟩ := List.append_of_mem h
  refine List.lookup_eq_some_iff.mpr ⟨l, r, hlr, ?_⟩
  intro w hw
  rw [hlr, List.map_append, List.map_cons, List.nodup_append] at hn
  have hne := hn.2.2 w.1 (List.mem_map_of_mem hw) worker List.mem_cons_self
  simpa using hne.symm

theorem mem_of_workOf? (h : p.workOf? worker = some x) : (worker, x) ∈ p.workers := by
  obtain ⟨l, r, hlr, -⟩ := List.lookup_eq_some_iff.mp h
  rw [hlr]
  exact List.mem_append_right _ List.mem_cons_self

variable (hn : (p.workers.map (·.1)).Nodup) (h : p.workOf? worker = some x)
include hn h

theorem moves_setWork (y : Work) : Moves p (p.setWork worker y) worker x y := by
  obtain ⟨l, r, hlr, hl, hr⟩ := exists_split hn h
  refine ⟨l ++ r, hlr ▸ List.perm_middle, ?_⟩
  have hset : (p.setWork worker y).workers = l ++ (worker, y) :: r := by
    have hid : ∀ s : List (Nat × Work), (∀ w ∈ s, w.1 ≠ worker) →
        (s.map fun w => if w.1 = worker then (w.1, y) else (w.1, w.2)) = s := by
      intro s hs
      refine (List.map_congr_left fun w hw => ?_).trans s.map_id
      exact if_neg (hs w hw)
    change (p.workers.map fun w => if w.1 = worker then (w.1, y) else (w.1, w.2)) = _
    rw [hlr, List.map_append, List.map_cons, hid l hl, hid r hr, if_pos rfl]
  exact hset ▸ List.perm_middle

/-- The others, when a worker is taken from the list. -/
theorem perm_filter : p.workers.Perm ((worker, x) :: p.workers.filter (·.1 ≠ worker)) := by
  obtain ⟨l, r, hlr, hl, hr⟩ := exists_split hn h
  have hf : p.workers.filter (·.1 ≠ worker) = l ++ r := by
    rw [hlr, List.filter_append, List.filter_cons_of_neg (by simp),
      List.filter_eq_self.mpr fun w hw => decide_eq_true (hl w hw),
      List.filter_eq_self.mpr fun w hw => decide_eq_true (hr w hw)]
  rw [hf, hlr]
  exact List.perm_middle

end Moves

/-! ## Inversion -/

section Inversion

variable {p p' : Pool α} {worker : Nat}

theorem act_notify {woken : Option Nat} (h : p.act (.notify woken) = some p') :
    p.notices ≠ 0 ∧
      ((∃ w, p.workOf? w = some .asleep ∧
          p' = { p with notices := p.notices - 1 }.setWork w .idle) ∨
        (∀ w ∈ p.workers, w.2 ≠ .asleep) ∧ p' = { p with notices := p.notices - 1 }) := by
  cases woken with
  | some w =>
      dsimp only [act] at h
      split_ifs at h with hz hw
      exact ⟨hz, .inl ⟨w, hw, (Option.some.inj h).symm⟩⟩
  | none =>
      dsimp only [act] at h
      split_ifs at h with hz hw
      refine ⟨hz, .inr ⟨fun w hm hs => hw ?_, (Option.some.inj h).symm⟩⟩
      exact List.any_eq_true.mpr ⟨w, hm, decide_eq_true hs⟩

theorem act_grow (h : p.act .grow = some p') :
    p.growing ≠ 0 ∧ p.spawning = false ∧ p' = p.grow := by
  dsimp only [act] at h
  split_ifs at h with hc
  rw [not_or] at hc
  exact ⟨hc.1, by simpa using hc.2, (Option.some.inj h).symm⟩

theorem act_spawn {started : Bool} (h : p.act (.spawn started) = some p') :
    p.spawning = true ∧ p' = p.spawn started := by
  dsimp only [act] at h
  split_ifs at h with hc
  exact ⟨hc, (Option.some.inj h).symm⟩

theorem act_start (h : p.act (.start worker) = some p') :
    ∃ task rest, p.workOf? worker = some .idle ∧ p.queue = task :: rest ∧
      p' = { p with queue := rest }.setWork worker (.running task) := by
  dsimp only [act] at h
  split at h
  · rename_i task rest hw hq
    exact ⟨task, rest, hw, hq, (Option.some.inj h).symm⟩
  · cases h

theorem act_sleep (h : p.act (.sleep worker) = some p') :
    p.workOf? worker = some .idle ∧ p.stopping = false ∧ p.queue = [] ∧
      p' = p.setWork worker .asleep := by
  dsimp only [act] at h
  split at h
  · rename_i hw
    split_ifs at h with hc
    rw [not_or, not_not] at hc
    exact ⟨hw, by simpa using hc.1, hc.2, (Option.some.inj h).symm⟩
  · cases h

theorem act_finish {outcome : Outcome α} (h : p.act (.finish worker outcome) = some p') :
    ∃ task, p.workOf? worker = some (.running task) ∧
      p' = (p.setSlot task { p.slot task with outcome }).setWork worker (.sent task) := by
  dsimp only [act] at h
  split at h
  · rename_i task hw
    exact ⟨task, hw, (Option.some.inj h).symm⟩
  · cases h

theorem act_close (h : p.act (.close worker) = some p') :
    ∃ task, p.workOf? worker = some (.sent task) ∧
      p' = (p.setSlot task { p.slot task with closed := true }).setWork worker (.ending task) := by
  dsimp only [act] at h
  split at h
  · rename_i task hw
    exact ⟨task, hw, (Option.some.inj h).symm⟩
  · cases h

theorem act_release (h : p.act (.release worker) = some p') :
    ∃ task, p.workOf? worker = some (.ending task) ∧
      p' = { p with
        outstanding := p.outstanding - 1
        workers := p.workers.filter (·.1 ≠ worker) ++ [(worker, .idle)] } := by
  dsimp only [act] at h
  split at h
  · rename_i task hw
    exact ⟨task, hw, (Option.some.inj h).symm⟩
  · cases h

theorem act_exit (h : p.act (.exit worker) = some p') :
    p.workOf? worker = some .idle ∧ p.stopping = true ∧ p.queue = [] ∧
      p' = { p with workers := p.workers.filter (·.1 ≠ worker) } := by
  dsimp only [act] at h
  split at h
  · rename_i hw
    split_ifs at h with hc
    exact ⟨hw, hc.1, hc.2, (Option.some.inj h).symm⟩
  · cases h

theorem act_rouse (h : p.act .rouse = some p') : p.alarms ≠ 0 ∧ p' = p.rouse := by
  dsimp only [act] at h
  split_ifs at h with hc
  exact ⟨hc, (Option.some.inj h).symm⟩

theorem act_takeHandles (h : p.act .takeHandles = some p') :
    p.stopping = true ∧ p.spawning = false ∧ p' = { p with handles := [] } := by
  dsimp only [act] at h
  split_ifs at h with hc
  exact ⟨hc.1, by simpa using hc.2, (Option.some.inj h).symm⟩

end Inversion

end SessionDispatch.Pool
