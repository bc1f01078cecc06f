import Mathlib.Data.List.Induction
import SessionDispatch.Proofs.Pool.Sound

/-!
# What becomes of the tasks of a pool

A run notes which tasks were taken, started and ended, when the closure of a task was dropped, and
what its handle answered. The notes, the line of tasks, the workers and what the tasks have left for
their handles account for each other: nothing is noted twice, and nothing gets lost.
-/

namespace SessionDispatch.Pool

variable {α : Type}

inductive Note (α : Type)
  | accepted (task : Nat)
  | refused (f : Failure)
  | started (task : Nat)
  | ended (task : Nat) (outcome : Outcome α)
  | closed (task : Nat)
  | answered (task : Nat) (answer : Option (Except Failure α))

namespace Note

def accepted? : Note α → Option Nat
  | accepted t => some t
  | _ => none

def started? : Note α → Option Nat
  | started t => some t
  | _ => none

def outcome? (task : Nat) : Note α → Option (Outcome α)
  | ended t outcome => if t = task then some outcome else none
  | _ => none

def closed? : Note α → Option Nat
  | closed t => some t
  | _ => none

/-- What the handle of a task gave, if this is more than that there is nothing. -/
def given? (task : Nat) : Note α → Option (Except Failure α)
  | answered _ none | answered _ (some (.error .taskLost)) => none
  | answered t (some r) => if t = task then some r else none
  | _ => none

end Note

def note? (p : Pool α) : Act α → Option (Note α)
  | .submit =>
    match p.submit.1 with
    | .ok task => some (.accepted task)
    | .error f => some (.refused f)
  | .start _ => p.queue.head?.map .started
  | .finish worker outcome =>
    match p.workOf? worker with
    | some (.running task) => some (.ended task outcome)
    | _ => none
  | .close worker =>
    match p.workOf? worker with
    | some (.sent task) => some (.closed task)
    | _ => none
  | .take task => some (.answered task (p.take task).1)
  | _ => none

def notes (p : Pool α) (acts : List (Act α)) : List (Note α) := Run.observe act note? p acts

section

variable (ns : List (Note α))

def accepted : List Nat := ns.filterMap Note.accepted?

def started : List Nat := ns.filterMap Note.started?

def outcomes (task : Nat) : List (Outcome α) := ns.filterMap (Note.outcome? task)

def closed : List Nat := ns.filterMap Note.closed?

def given (task : Nat) : List (Except Failure α) := ns.filterMap (Note.given? task)

theorem filterMap_concat {β : Type} (f : Note α → Option β) (n : Note α) :
    (ns ++ [n]).filterMap f = ns.filterMap f ++ (f n).toList := by
  rw [List.filterMap_append]
  cases hf : f n <;> simp [hf]

variable (n : Note α) (t : Nat)

theorem accepted_concat : accepted (ns ++ [n]) = accepted ns ++ n.accepted?.toList :=
  filterMap_concat ..

theorem started_concat : started (ns ++ [n]) = started ns ++ n.started?.toList :=
  filterMap_concat ..

theorem outcomes_concat : outcomes (ns ++ [n]) t = outcomes ns t ++ (n.outcome? t).toList :=
  filterMap_concat ..

theorem closed_concat : closed (ns ++ [n]) = closed ns ++ n.closed?.toList := filterMap_concat ..

theorem given_concat : given (ns ++ [n]) t = given ns t ++ (n.given? t).toList :=
  filterMap_concat ..

end

namespace Work

def isRunning (task : Nat) : Work → Bool
  | running t => t = task
  | _ => false

def isSent (task : Nat) : Work → Bool
  | sent t => t = task
  | _ => false

end Work

/-- Tasks are numbered as they are taken, and those that were started are the first of them. -/
structure Lined (p : Pool α) (ns : List (Note α)) : Prop where
  accepted : accepted ns = List.range p.nextTask
  started : started ns ++ p.queue = List.range p.nextTask
  slots : p.slots.map (·.1) = List.range p.nextTask

/-- How notes belong to the state that they lead to. -/
structure Told (p : Pool α) (ns : List (Note α)) : Prop extends Lined p ns where
  running : ∀ t, (outcomes ns t).length + p.count (Work.isRunning t) = (Pool.started ns).count t
  sent : ∀ t, (closed ns).count t + p.count (Work.isSent t) = (outcomes ns t).length
  given : ∀ t, (outcomes ns t).map Outcome.deliver =
    given ns t ++ ((p.slot t).outcome.map Outcome.deliver).toList
  closed : ∀ t, (p.slot t).closed = true ↔ t ∈ closed ns

theorem told_new (threads threshold : Nat) : (new threads threshold : Pool α).Told [] where
  accepted := rfl
  started := rfl
  slots := rfl
  running := by
    intro t
    have h : (new threads threshold : Pool α).count (Work.isRunning t) = 0 := by
      refine count_eq_zero.mpr fun w hw => ?_
      obtain ⟨n, -, rfl⟩ := List.mem_map.mp hw
      rfl
    rw [h]
    rfl
  sent := by
    intro t
    have h : (new threads threshold : Pool α).count (Work.isSent t) = 0 := by
      refine count_eq_zero.mpr fun w hw => ?_
      obtain ⟨n, -, rfl⟩ := List.mem_map.mp hw
      rfl
    rw [h]
    rfl
  given := fun _ => rfl
  closed := by
    intro t
    exact ⟨nofun, fun h => absurd h List.not_mem_nil⟩

section Slots

variable {p : Pool α} {task : Nat}

theorem lookup_setSlot (s : Slot α) (t : Nat) :
    (p.setSlot task s).slots.lookup t = (p.slots.lookup t).map fun old => if t = task then s
    else old := by
  unfold setSlot
  dsimp only
  induction p.slots with
  | nil => rfl
  | cons e es ih =>
      obtain ⟨n, old⟩ := e
      by_cases ht : t = n
      · subst ht
        by_cases hn : t = task <;> simp [hn]
      · have hb : (t == n) = false := by simpa using ht
        have hhead : (if n = task then (n, s) else (n, old)).1 = n := by split_ifs <;> rfl
        rw [List.map_cons, List.lookup_cons, List.lookup_cons, hb]
        dsimp only
        rw [hhead, hb]
        exact ih

theorem slot_setSlot (h : task ∈ p.slots.map (·.1)) (s : Slot α) (t : Nat) :
    (p.setSlot task s).slot t = if t = task then s else p.slot t := by
  unfold slot
  rw [lookup_setSlot]
  split_ifs with ht
  · subst ht
    obtain ⟨e, he, hid⟩ := List.mem_map.mp h
    cases hl : p.slots.lookup t with
    | some old => rfl
    | none =>
        have hne := List.lookup_eq_none_iff.mp hl e he
        simp [hid] at hne
  · cases p.slots.lookup t <;> rfl

theorem setSlot_keys (s : Slot α) : (p.setSlot task s).slots.map (·.1) = p.slots.map (·.1) := by
  unfold setSlot
  rw [List.map_map]
  refine List.map_congr_left fun e _ => ?_
  dsimp only [Function.comp_apply]
  split_ifs <;> rfl

theorem lookup_concat (slots : List (Nat × Slot α)) (n t : Nat) :
    ((slots ++ [(n, ({} : Slot α))]).lookup t).getD {} = (slots.lookup t).getD {} := by
  rw [List.lookup_append]
  cases slots.lookup t with
  | some s => rfl
  | none =>
      rw [List.lookup_cons]
      cases t == n <;> rfl

end Slots

/-! ## One act -/

/-- The line stays as it is when no task is taken or started. -/
theorem Lined.concat {p p' : Pool α} {ns : List (Note α)} (hl : p.Lined ns) {n : Note α}
    (ha : n.accepted? = none) (hst : n.started? = none) (hnext : p'.nextTask = p.nextTask)
    (hqueue : p'.queue = p.queue) (hslots : p'.slots.map (·.1) = p.slots.map (·.1)) :
    p'.Lined (ns ++ [n]) where
  accepted := by
    rw [accepted_concat, ha, hnext, Option.toList_none, List.append_nil]
    exact hl.accepted
  started := by
    rw [started_concat, hst, hnext, hqueue, Option.toList_none, List.append_nil]
    exact hl.started
  slots := by
    rw [hslots, hnext]
    exact hl.slots

namespace Told

variable {p p' : Pool α} {ns : List (Note α)} {worker : Nat}

/-- What an act leaves alone that notes nothing. -/
theorem of_same (ht : p.Told ns) (hnext : p'.nextTask = p.nextTask) (hqueue : p'.queue = p.queue)
    (hslots : p'.slots = p.slots)
    (hrun : ∀ t, p'.count (Work.isRunning t) = p.count (Work.isRunning t))
    (hsent : ∀ t, p'.count (Work.isSent t) = p.count (Work.isSent t)) : p'.Told ns where
  accepted := hnext ▸ ht.accepted
  started := by
    rw [hnext, hqueue]
    exact ht.started
  slots := by
    rw [hnext, hslots]
    exact ht.slots
  running := fun t => hrun t ▸ ht.running t
  sent := fun t => hsent t ▸ ht.sent t
  given := by
    unfold slot
    rw [hslots]
    exact ht.given
  closed := by
    unfold slot
    rw [hslots]
    exact ht.closed

/-- A worker goes on that has no part in what is noted. -/
theorem of_moves (ht : p.Told ns) {x y : Work} (hm : Moves p p' worker x y)
    (hx : ∀ t, x.isRunning t = false ∧ x.isSent t = false)
    (hy : ∀ t, y.isRunning t = false ∧ y.isSent t = false)
    (hp' : p' = { p with
      workers := p'.workers, outstanding := p'.outstanding, notices :=
        p'.notices }) : p'.Told ns := by
  refine ht.of_same (by rw [hp']) (by rw [hp']) (by rw [hp']) (fun t => ?_) (fun t => ?_)
  · have hc := hm.count (Work.isRunning t)
    simpa [(hx t).1, (hy t).1] using hc
  · have hc := hm.count (Work.isSent t)
    simpa [(hx t).2, (hy t).2] using hc

/-- What is noted says nothing of any task. -/
theorem concat (ht : p.Told ns) {n : Note α} (ha : n.accepted? = none) (hst : n.started? = none)
    (ho : ∀ t, n.outcome? t = none) (hc : n.closed? = none) (hg : ∀ t, n.given? t = none) :
    p.Told (ns ++ [n]) where
  toLined := ht.toLined.concat ha hst rfl rfl rfl
  running := by
    intro t
    rw [outcomes_concat, started_concat, ho, hst]
    simpa using ht.running t
  sent := by
    intro t
    rw [outcomes_concat, closed_concat, ho, hc]
    simpa using ht.sent t
  given := by
    intro t
    rw [outcomes_concat, given_concat, ho, hg]
    simpa using ht.given t
  closed := by
    intro t
    rw [closed_concat, hc]
    simpa using ht.closed t

/-- A task that is started is with one worker more, and one that ends with one less. -/
theorem running_concat (ht : p.Told ns) {x y : Work} (hm : Moves p p' worker x y) {n : Note α}
    {t : Nat}
    (h : (n.outcome? t).toList.length + (if y.isRunning t then 1 else 0) =
      n.started?.toList.count t + if x.isRunning t then 1 else 0) :
    (outcomes (ns ++ [n]) t).length + p'.count (Work.isRunning t) =
      (Pool.started (ns ++ [n])).count t := by
  have hc := hm.count (Work.isRunning t)
  have hr := ht.running t
  rw [outcomes_concat, started_concat, List.length_append, List.count_append]
  omega

/-- Between its end and the dropping of its closure a task is with the worker that carried
it out. -/
theorem sent_concat (ht : p.Told ns) {x y : Work} (hm : Moves p p' worker x y) {n : Note α}
    {t : Nat}
    (h : n.closed?.toList.count t + (if y.isSent t then 1 else 0) =
      (n.outcome? t).toList.length + if x.isSent t then 1 else 0) :
    (Pool.closed (ns ++ [n])).count t + p'.count (Work.isSent t) =
    (outcomes (ns ++ [n]) t).length := by
  have hc := hm.count (Work.isSent t)
  have hs := ht.sent t
  rw [outcomes_concat, closed_concat, List.length_append, List.count_append]
  omega

theorem submit (ht : p.Told ns) : p.submit.2.Told (ns ++ (p.note? .submit).toList) := by
  cases hc : p.stopping with
  | true =>
      have hn : p.note? .submit = some (.refused .poolClosed) := by
        unfold note?
        rw [submit_of_stopping hc]
      rw [submit_of_stopping hc, hn]
      exact ht.concat rfl rfl (fun _ => rfl) rfl fun _ => rfl
  | false =>
      obtain ⟨growing, hp⟩ := submit_of_open hc
      have hn : p.note? .submit = some (.accepted p.nextTask) := by
        unfold note?
        rw [hp]
      have hslot : ∀ t, (p.submit.2).slot t = p.slot t := by
        intro t
        rw [hp]
        exact lookup_concat ..
      rw [hp] at hslot ⊢
      rw [hn]
      refine ⟨⟨?_, ?_, ?_⟩, ?_, ?_, ?_, ?_⟩
      · rw [Option.toList_some, accepted_concat, ht.accepted, List.range_succ]
        rfl
      · rw [Option.toList_some, started_concat, List.range_succ, ← ht.started]
        simp [Note.started?]
      · rw [List.map_append, ht.slots, List.range_succ]
        rfl
      · intro t
        rw [Option.toList_some, outcomes_concat, started_concat]
        dsimp only [Note.outcome?, Note.started?, Option.toList_none]
        rw [List.append_nil, List.append_nil]
        exact ht.running t
      · intro t
        rw [Option.toList_some, outcomes_concat, closed_concat]
        dsimp only [Note.outcome?, Note.closed?, Option.toList_none]
        rw [List.append_nil, List.append_nil]
        exact ht.sent t
      · intro t
        rw [Option.toList_some, outcomes_concat, given_concat, hslot]
        simpa [Note.outcome?, Note.given?] using ht.given t
      · intro t
        rw [Option.toList_some, closed_concat, hslot]
        simpa [Note.closed?] using ht.closed t

theorem start (ht : p.Told ns) (hs : p.Sound) (h : p.act (.start worker) = some p') :
    p'.Told (ns ++ (p.note? (.start worker)).toList) := by
  obtain ⟨task, rest, hw, hq, rfl⟩ := act_start h
  have hm : Moves p _ worker .idle (.running task) :=
    moves_setWork (p := { p with queue := rest }) hs.ids hw (.running task)
  have hn : p.note? (.start worker) = some (.started task) := by
    unfold note?
    rw [hq]
    rfl
  rw [hn, Option.toList_some]
  refine ⟨⟨?_, ?_, ht.slots⟩, ?_, ?_, ?_, ?_⟩
  · rw [accepted_concat]
    exact (List.append_nil _).trans ht.accepted
  · rw [started_concat]
    have hst := ht.started
    rw [hq] at hst
    simpa [Note.started?, setWork] using hst
  · intro t
    refine ht.running_concat hm ?_
    simp [Work.isRunning, Note.outcome?, Note.started?, List.count_singleton]
  · exact fun t => ht.sent_concat hm rfl
  · intro t
    rw [outcomes_concat, given_concat]
    dsimp only [Note.outcome?, Note.given?, Option.toList_none]
    rw [List.append_nil, List.append_nil]
    exact ht.given t
  · intro t
    rw [closed_concat]
    dsimp only [Note.closed?, Option.toList_none]
    rw [List.append_nil]
    exact ht.closed t

/-- A task that runs was started once, and nothing else is noted of it. -/
theorem of_running (ht : p.Told ns) {task : Nat} (hw : p.workOf? worker = some (.running task)) :
    task ∈ p.slots.map (·.1) ∧ outcomes ns task = [] ∧ Pool.given ns task = [] ∧
      (p.slot task).outcome = none := by
  have hpos : 0 < p.count (Work.isRunning task) :=
    List.countP_pos_iff.mpr ⟨_, mem_of_workOf? hw, decide_eq_true rfl⟩
  have hrun := ht.running task
  have hmem : task ∈ List.range p.nextTask := by
    rw [← ht.started]
    exact List.mem_append_left _ (List.count_pos_iff.mp (by omega))
  have hle : (Pool.started ns).count task ≤ 1 := by
    have hnodup : (List.range p.nextTask).Nodup := List.nodup_range
    rw [← ht.started] at hnodup
    exact List.nodup_iff_count_le_one.mp hnodup.of_append_left task
  have hnil : outcomes ns task = [] := List.length_eq_zero_iff.mp (by omega)
  have hgiven := ht.given task
  rw [hnil, List.map_nil] at hgiven
  obtain ⟨hg, ho⟩ := List.append_eq_nil_iff.mp hgiven.symm
  refine ⟨ht.slots ▸ hmem, hnil, hg, ?_⟩
  rw [Option.toList_eq_nil_iff] at ho
  exact Option.map_eq_none_iff.mp ho

theorem finish (ht : p.Told ns) (hs : p.Sound) {outcome : Outcome α}
    (h : p.act (.finish worker outcome) = some p') :
    p'.Told (ns ++ (p.note? (.finish worker outcome)).toList) := by
  obtain ⟨task, hw, rfl⟩ := act_finish h
  obtain ⟨hmem, hnil, hg, -⟩ := ht.of_running hw
  have hm : Moves p _ worker (.running task) (.sent task) :=
    moves_setWork (p := p.setSlot task { p.slot task with outcome }) hs.ids hw _
  have hn : p.note? (.finish worker outcome) = some (.ended task outcome) := by
    dsimp only [note?]
    rw [hw]
  have hslot :
      ∀ t, ((p.setSlot task { p.slot task with outcome }).setWork worker (.sent task)).slot t =
      if t = task then { p.slot task with outcome } else p.slot t := slot_setSlot hmem _
  rw [hn, Option.toList_some]
  refine ⟨ht.toLined.concat rfl rfl rfl rfl (setSlot_keys _), ?_, ?_, ?_, ?_⟩
  · intro t
    refine ht.running_concat hm ?_
    by_cases hte : task = t <;> simp [Work.isRunning, Note.outcome?, Note.started?, hte]
  · intro t
    refine ht.sent_concat hm ?_
    by_cases hte : task = t <;> simp [Work.isSent, Note.outcome?, Note.closed?, hte]
  · intro t
    rw [outcomes_concat, given_concat, hslot]
    by_cases hte : t = task
    · subst hte
      rw [hnil, hg, if_pos rfl]
      simp [Note.outcome?, Note.given?]
    · rw [if_neg hte]
      simpa [Note.outcome?, Note.given?, Ne.symm hte] using ht.given t
  · intro t
    rw [closed_concat, hslot]
    have hc := ht.closed t
    split_ifs with hte
    · subst hte
      simpa [Note.closed?] using hc
    · simpa [Note.closed?] using hc

theorem mem_slots (ht : p.Told ns) {task : Nat} (h : 0 < (outcomes ns task).length) :
    task ∈ p.slots.map (·.1) := by
  have hrun := ht.running task
  rw [ht.slots, ← ht.started]
  exact List.mem_append_left _ (List.count_pos_iff.mp (by omega))

theorem close (ht : p.Told ns) (hs : p.Sound) (h : p.act (.close worker) = some p') :
    p'.Told (ns ++ (p.note? (.close worker)).toList) := by
  obtain ⟨task, hw, rfl⟩ := act_close h
  have hpos : 0 < p.count (Work.isSent task) :=
    List.countP_pos_iff.mpr ⟨_, mem_of_workOf? hw, decide_eq_true rfl⟩
  have hmem : task ∈ p.slots.map (·.1) := ht.mem_slots (by have := ht.sent task; omega)
  have hm : Moves p _ worker (.sent task) (.ending task) :=
    moves_setWork (p := p.setSlot task { p.slot task with closed := true }) hs.ids hw _
  have hn : p.note? (.close worker) = some (.closed task) := by
    dsimp only [note?]
    rw [hw]
  have hslot : ∀ t,
      ((p.setSlot task { p.slot task with closed := true }).setWork worker (.ending task)).slot t =
      if t = task then { p.slot task with closed := true } else p.slot t := slot_setSlot hmem _
  rw [hn, Option.toList_some]
  refine ⟨ht.toLined.concat rfl rfl rfl rfl (setSlot_keys _), ?_, ?_, ?_, ?_⟩
  · exact fun t => ht.running_concat hm rfl
  · intro t
    refine ht.sent_concat hm ?_
    by_cases hte : task = t <;> simp [Work.isSent, Note.outcome?, Note.closed?, hte]
  · intro t
    rw [outcomes_concat, given_concat, hslot]
    have hg := ht.given t
    split_ifs with hte
    · subst hte
      simpa [Note.outcome?, Note.given?] using hg
    · simpa [Note.outcome?, Note.given?] using hg
  · intro t
    rw [closed_concat, hslot]
    have hc := ht.closed t
    split_ifs with hte
    · subst hte
      simp [Note.closed?]
    · simpa [Note.closed?, hte] using hc

theorem take (ht : p.Told ns) (task : Nat) :
    (p.take task).2.Told (ns ++ (p.note? (.take task)).toList) := by
  have hn : p.note? (.take task) = some (.answered task (p.take task).1) := rfl
  rw [hn, Option.toList_some]
  cases ho : (p.slot task).outcome with
  | none =>
      have htake :
          p.take task = (if (p.slot task).closed then some (.error .taskLost) else none, p) := by
        unfold Pool.take
        rw [ho]
      rw [htake]
      refine ht.concat rfl rfl (fun _ => rfl) rfl fun t => ?_
      dsimp only
      split_ifs <;> rfl
  | some outcome =>
      have htake : p.take task =
          (some outcome.deliver, p.setSlot task { p.slot task with outcome := none }) := by
        unfold Pool.take
        rw [ho]
      have hmem : task ∈ p.slots.map (·.1) := by
        refine ht.mem_slots ?_
        have hg := congrArg List.length (ht.given task)
        rw [ho] at hg
        simp only [List.length_map, List.length_append, Option.map_some, Option.toList_some,
          List.length_singleton] at hg
        omega
      have hgiven : ∀ t, Note.given? t (.answered task (some outcome.deliver)) =
          if task = t then some outcome.deliver else none := by
        intro t
        cases outcome <;> rfl
      rw [htake]
      refine ⟨ht.toLined.concat rfl rfl rfl rfl (setSlot_keys _), ?_, ?_, ?_, ?_⟩
      · intro t
        rw [outcomes_concat, started_concat]
        dsimp only [Note.outcome?, Note.started?, Option.toList_none]
        rw [List.append_nil, List.append_nil]
        exact ht.running t
      · intro t
        rw [outcomes_concat, closed_concat]
        dsimp only [Note.outcome?, Note.closed?, Option.toList_none]
        rw [List.append_nil, List.append_nil]
        exact ht.sent t
      · intro t
        rw [outcomes_concat, given_concat, hgiven, slot_setSlot hmem]
        have hg := ht.given t
        by_cases hte : t = task
        · subst hte
          rw [ho] at hg
          simpa [Note.outcome?] using hg
        · simpa [Note.outcome?, hte, Ne.symm hte] using hg
      · intro t
        rw [closed_concat, slot_setSlot hmem]
        have hc := ht.closed t
        split_ifs with hte
        · subst hte
          simpa [Note.closed?] using hc
        · simpa [Note.closed?] using hc

theorem act (ht : p.Told ns) (hs : p.Sound) {a : Act α} (ha : p.act a = some p') :
    p'.Told (ns ++ (p.note? a).toList) := by
  have hnone : p'.Told ns → p'.Told (ns ++ (none : Option (Note α)).toList) := fun h => by
    rw [Option.toList_none, List.append_nil]
    exact h
  cases a with
  | submit =>
      obtain rfl := Option.some.inj ha
      exact ht.submit
  | start worker => exact ht.start hs ha
  | finish worker outcome => exact ht.finish hs ha
  | close worker => exact ht.close hs ha
  | take task =>
      obtain rfl := Option.some.inj ha
      exact ht.take task
  | notify woken =>
      refine hnone ?_
      obtain ⟨-, ⟨w, hw, rfl⟩ | ⟨-, rfl⟩⟩ := act_notify ha
      · exact ht.of_moves (moves_setWork (p := { p with notices := p.notices - 1 }) hs.ids hw .idle)
          (fun _ => ⟨rfl, rfl⟩) (fun _ => ⟨rfl, rfl⟩) rfl
      · exact ht.of_same rfl rfl rfl (fun _ => rfl) fun _ => rfl
  | grow =>
      refine hnone ?_
      obtain ⟨-, -, rfl⟩ := act_grow ha
      exact ht.of_same rfl rfl rfl (fun _ => rfl) fun _ => rfl
  | spawn started =>
      refine hnone ?_
      obtain ⟨-, rfl⟩ := act_spawn ha
      cases started with
      | false => exact ht.of_same rfl rfl rfl (fun _ => rfl) fun _ => rfl
      | true =>
          have hcount : ∀ P : Work → Bool, P .idle = false →
              (p.spawn true).count P = p.count P := by
            intro P hP
            refine (List.countP_append.trans (congrArg _ (List.countP_singleton ..))).trans ?_
            simp [hP, count]
          exact ht.of_same rfl rfl rfl (fun _ => hcount _ rfl) fun _ => hcount _ rfl
  | sleep worker =>
      refine hnone ?_
      obtain ⟨hw, -, -, rfl⟩ := act_sleep ha
      exact ht.of_moves (moves_setWork hs.ids hw .asleep) (fun _ => ⟨rfl, rfl⟩)
        (fun _ => ⟨rfl, rfl⟩) rfl
  | release worker =>
      refine hnone ?_
      obtain ⟨task, hw, rfl⟩ := act_release ha
      exact ht.of_moves (y := .idle) ⟨_, perm_filter hs.ids hw, List.perm_append_singleton ..⟩
        (fun _ => ⟨rfl, rfl⟩) (fun _ => ⟨rfl, rfl⟩) rfl
  | exit worker =>
      refine hnone ?_
      obtain ⟨hw, -, -, rfl⟩ := act_exit ha
      have hcount : ∀ P : Work → Bool, P .idle = false →
          (p.workers.filter (·.1 ≠ worker)).countP (P ·.2) = p.count P := by
        intro P hP
        unfold count
        rw [(perm_filter hs.ids hw).countP_eq, List.countP_cons, hP]
        simp
      exact ht.of_same rfl rfl rfl (fun _ => hcount _ rfl) fun _ => hcount _ rfl
  | rouse =>
      refine hnone ?_
      obtain ⟨-, rfl⟩ := act_rouse ha
      exact ht.of_same rfl rfl rfl (fun _ => count_rouse p rfl) fun _ => count_rouse p rfl
  | stop =>
      refine hnone ?_
      obtain rfl := Option.some.inj ha
      exact ht.of_same rfl rfl rfl (fun _ => rfl) fun _ => rfl
  | takeHandles =>
      refine hnone ?_
      obtain ⟨-, -, rfl⟩ := act_takeHandles ha
      exact ht.of_same rfl rfl rfl (fun _ => rfl) fun _ => rfl

end Told

theorem told_run {p p' : Pool α} (hs : p.Sound) (ht : p.Told []) {acts : List (Act α)}
    (hr : p.run acts = some p') : p'.Told (p.notes acts) := by
  have hrun := Run.invariant_observe note? (fun q ns => q.Sound ∧ q.Told ns)
    (fun _ _ _ _ hq ha => ⟨hq.1.act ha, hq.2.act hq.1 ha⟩) ⟨hs, ht⟩ hr
  exact hrun.2

end SessionDispatch.Pool
