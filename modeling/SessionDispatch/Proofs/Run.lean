import Mathlib.Data.List.Basic

/-!
# Runs of steps that may fail

A machine takes one step after the other until one of them cannot happen. What every step keeps
holds after every run.
-/

namespace SessionDispatch.Run

variable {σ α : Type} {step : σ → α → Option σ}

theorem foldlM_concat (s : σ) (acts : List α) (a : α) :
    (acts ++ [a]).foldlM step s = (acts.foldlM step s).bind (step · a) := by
  rw [List.foldlM_append]
  cases acts.foldlM step s with
  | none => rfl
  | some t => simp

theorem foldlM_cons_eq_some {s t : σ} {a : α} {acts : List α}
    (h : (a :: acts).foldlM step s = some t) :
    ∃ u, step s a = some u ∧ acts.foldlM step u = some t := by
  simpa [Option.bind_eq_some_iff] using h

theorem foldlM_concat_eq_some {s t : σ} {a : α} {acts : List α}
    (h : (acts ++ [a]).foldlM step s = some t) :
    ∃ u, acts.foldlM step s = some u ∧ step u a = some t := by
  rw [foldlM_concat] at h
  exact Option.bind_eq_some_iff.mp h

/-- Where an act stands in a run that goes on by one act. -/
theorem concat_eq_append_cons {acts before after : List α} {a b : α} :
    acts ++ [a] = before ++ b :: after ↔
      (∃ rest, after = rest ++ [a] ∧ acts = before ++ b :: rest) ∨
        (before = acts ∧ b = a ∧ after = []) := by
  rcases List.eq_nil_or_concat' after with rfl | ⟨rest, y, rfl⟩
  · constructor
    · intro h
      obtain ⟨h₁, h₂⟩ := List.append_inj' h rfl
      exact .inr ⟨h₁.symm, by simpa using h₂.symm, rfl⟩
    · rintro (⟨rest, h, -⟩ | ⟨rfl, rfl, -⟩)
      · simp at h
      · rfl
  · rw [← List.cons_append, ← List.append_assoc]
    constructor
    · intro h
      obtain ⟨h₁, h₂⟩ := List.append_inj' h rfl
      exact .inl ⟨rest, by simpa using h₂.symm, h₁⟩
    · rintro (⟨rest', h, rfl⟩ | ⟨-, -, h⟩)
      · obtain ⟨rfl, hy⟩ := List.append_inj' h rfl
        rw [hy]
      · simp at h

/-- A run is a run of its first acts, and of the others from there. -/
theorem foldlM_append_eq_some {s t : σ} {before after : List α}
    (h : (before ++ after).foldlM step s = some t) :
    ∃ u, before.foldlM step s = some u ∧ after.foldlM step u = some t := by
  rw [List.foldlM_append] at h
  exact Option.bind_eq_some_iff.mp h

/-- What holds at the start and is kept by every step with an allowed act holds after every run of
such acts. -/
theorem invariant_of_forall (P : σ → Prop) {A : α → Prop}
    (hstep : ∀ s a t, A a → P s → step s a = some t → P t) {s t : σ} {acts : List α}
    (hall : ∀ a ∈ acts, A a) (hs : P s) (h : acts.foldlM step s = some t) : P t := by
  induction acts generalizing s with
  | nil =>
      obtain rfl : s = t := Option.some.inj h
      exact hs
  | cons a acts ih =>
      obtain ⟨u, hu, ht⟩ := foldlM_cons_eq_some h
      have ha := List.forall_mem_cons.mp hall
      exact ih ha.2 (hstep s a u ha.1 hs hu) ht

/-- What holds at the start and is kept by every step holds after every run. -/
theorem invariant (P : σ → Prop) (hstep : ∀ s a t, P s → step s a = some t → P t) {s t : σ}
    {acts : List α} (hs : P s) (h : acts.foldlM step s = some t) : P t :=
  invariant_of_forall P (fun s a t (_ : True) => hstep s a t) (fun _ _ => trivial) hs h

/-- What does not hold at the start and holds after a run has come about by one of its steps. -/
theorem exists_step (P : σ → Prop) {s t : σ} {acts : List α} (hs : ¬ P s)
    (h : acts.foldlM step s = some t) (ht : P t) :
    ∃ before a after u v, acts = before ++ a :: after ∧ before.foldlM step s = some u ∧ ¬ P u ∧
      step u a = some v ∧ P v ∧ after.foldlM step v = some t := by
  induction acts generalizing s with
  | nil =>
      obtain rfl : s = t := Option.some.inj h
      exact absurd ht hs
  | cons a acts ih =>
      obtain ⟨v, hv, hrest⟩ := foldlM_cons_eq_some h
      by_cases hP : P v
      · exact ⟨[], a, acts, s, v, rfl, rfl, hs, hv, hP, hrest⟩
      · obtain ⟨before, b, after, u, w, rfl, hbefore, hu⟩ := ih hP hrest
        refine ⟨a :: before, b, after, u, w, rfl, ?_, hu⟩
        rw [List.foldlM_cons, hv]
        exact hbefore

/-! ## What is noted on the way -/

/-- What is noted of the acts of a run, each in the state in which it takes place. -/
def observe {β : Type} (step : σ → α → Option σ) (note? : σ → α → Option β) (s : σ) :
    List α → List β
  | [] => []
  | a :: acts => (note? s a).toList ++ ((step s a).map fun t => observe step note? t acts).getD []

theorem observe_concat {β : Type} (note? : σ → α → Option β) {s t : σ} {acts : List α}
    (h : acts.foldlM step s = some t) (a : α) :
    observe step note? s (acts ++ [a]) = observe step note? s acts ++ (note? t a).toList := by
  induction acts generalizing s with
  | nil =>
      obtain rfl : s = t := Option.some.inj h
      cases ha : step s a <;> simp [observe, ha]
  | cons b acts ih =>
      obtain ⟨u, hu, ht⟩ := foldlM_cons_eq_some h
      simp only [List.cons_append, observe, hu, Option.map_some, Option.getD_some]
      rw [ih ht, List.append_assoc]

/-- What every step keeps together with what it notes holds after every run with all that
was noted. -/
theorem invariant_observe {β : Type} (note? : σ → α → Option β) (P : σ → List β → Prop)
    (hstep : ∀ s ns a t, P s ns → step s a = some t → P t (ns ++ (note? s a).toList)) {s t : σ}
    {ns : List β} {acts : List α} (hs : P s ns) (h : acts.foldlM step s = some t) :
    P t (ns ++ observe step note? s acts) := by
  induction acts generalizing s ns with
  | nil =>
      obtain rfl : s = t := Option.some.inj h
      rw [observe, List.append_nil]
      exact hs
  | cons a acts ih =>
      obtain ⟨u, hu, ht⟩ := foldlM_cons_eq_some h
      rw [observe, hu, Option.map_some, Option.getD_some, ← List.append_assoc]
      exact ih (hstep s ns a u hs hu) ht

end SessionDispatch.Run
