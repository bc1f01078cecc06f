import SessionDispatch.Proofs.Reactor.Watching
import SessionDispatch.Reactor.Watchers

/-!
# Edges and registrations that are under way

The system reports an edge once. A wait that takes the event and does not find the descriptor in the
list returns nothing, and no later wait takes it. This happens only while the descriptor is half
registered or half removed, or not registered any more. For a removal this is meant to be; for a
registration it is a loss, since the descriptor enters the list right afterwards, readable, and is
not reported until it gets more input.
-/

namespace SessionDispatch.Watchers

open Poller

variable {δ : Type} {s s' : Watchers δ} {a : Act δ} {t : Nat} {d : δ}

/-- Some thread has begun to add or to remove a descriptor and is not done. -/
def Moving (s : Watchers δ) (d : δ) : Prop := ∃ stage ∈ s.stages, stage.moved? = some d

theorem moving_setStage {stage : Stage δ} (ht : t < s.stages.length) (hs : stage.moved? = some d) :
    (s.setStage t stage).Moving d := ⟨stage, List.mem_set ht stage, hs⟩

/-- What one thread does leaves what others have begun as it is. -/
theorem Moving.setStage (hm : s.Moving d) {old stage : Stage δ} (ht : s.stages[t]? = some old)
    (ho : old.moved? ≠ some d) : (s.setStage t stage).Moving d := by
  obtain ⟨x, hx, hd⟩ := hm
  obtain ⟨i, hi⟩ := List.mem_iff_getElem?.mp hx
  have hne : t ≠ i := by
    rintro rfl
    obtain rfl := Option.some.inj (ht.symm.trans hi)
    exact ho hd
  exact ⟨x, List.mem_of_getElem? ((List.getElem?_set_ne hne).trans hi), hd⟩

variable [DecidableEq δ]

/-! ## What one act does -/

/-- The ways in which an act can happen. -/
inductive Happens (s : Watchers δ) : Act δ → Watchers δ → Prop
  | turn {d : δ} {c : Condition} {noted : Bool} :
      Happens s (.turn d c noted) { s with
        poller := if noted then s.poller.signal d else s.poller
        conditions := fun e => if e = d then c else s.conditions e }
  | register {t : Nat} {d : δ} {trigger : Trigger} (ht : s.stages[t]? = some .free)
      (hd : d ∉ s.poller.descriptors) :
      Happens s (.register t d trigger) (setStage { s with poller := { s.poller with
        registered :=
          s.poller.registered ++ [⟨d, trigger, (s.conditions d).isReady⟩] } } t (.adding d))
  | refuse {t : Nat} {d : δ} {trigger : Trigger} (ht : s.stages[t]? = some .free)
      (hd : d ∈ s.poller.descriptors) :
      Happens s (.register t d trigger) s
  | watch {t : Nat} {d : δ} (ht : s.stages[t]? = some (.adding d)) :
      Happens s (.watch t) ({ s with poller := s.poller.watch d }.setStage t .free)
  | unwatch {t : Nat} {d : δ} (ht : s.stages[t]? = some .free) :
      Happens s (.unwatch t d)
        ({ s with poller := s.poller.unwatch d }.setStage t (.removing d false))
  | deregister {t : Nat} {d : δ} {waits : Bool} (ht : s.stages[t]? = some (.removing d waits)) :
      Happens s (.deregister t) ({ s with
        poller := (s.poller.deregister d true).2
        returned :=
          if waits then s.returned ++ [Readiness.closed d] else s.returned }.setStage t .free)
  | take {t : Nat} {d : δ} {poller : Poller δ} (ht : s.stages[t]? = some .free)
      (hp : s.poller.takeEvent s.conditions d = some poller) :
      Happens s (.take t d) ({ s with poller }.setStage t (.judging d (s.conditions d)))
  | drop {t : Nat} {d : δ} {c : Condition} (ht : s.stages[t]? = some (.judging d c))
      (hc : c.broken = true) :
      Happens s (.judge t) ({ s with poller := s.poller.unwatch d }.setStage t (.removing d true))
  | answer {t : Nat} {d : δ} {c : Condition} (ht : s.stages[t]? = some (.judging d c))
      (hc : c.broken = false) :
      Happens s (.judge t) (setStage { s with
        returned := s.returned ++ [if d ∈ s.poller.watched then .readable d else .idle] } t .free)

/-- A wait whose descriptor is not broken looks into the list and changes nothing. -/
theorem judge_of_not_broken {p : Poller δ} {c : Condition} (hc : c.broken = false) :
    p.judge (fun _ => c) d = (if d ∈ p.watched then .readable d else .idle, p) := by
  rw [judge, if_neg (Bool.eq_false_iff.mp hc)]
  split <;> rfl

theorem act_judge_of_not_broken {c : Condition} (ht : s.stages[t]? = some (.judging d c))
    (hc : c.broken = false) :
    s.act (.judge t) = some (setStage { s with
      returned :=
        s.returned ++ [if d ∈ s.poller.watched then .readable d else .idle] } t .free) := by
  simp only [act, ht]
  rw [if_neg (Bool.eq_false_iff.mp hc), judge_of_not_broken hc]

theorem act_judge_of_broken {c : Condition} (ht : s.stages[t]? = some (.judging d c))
    (hc : c.broken = true) :
    s.act (.judge t) =
      some ({ s with poller := s.poller.unwatch d }.setStage t (.removing d true)) := by
  simp only [act, ht]
  rw [if_pos hc]

theorem act_deregister_of_removing {waits : Bool} (ht : s.stages[t]? = some (.removing d waits)) :
    s.act (.deregister t) = some ({ s with
      poller := (s.poller.deregister d true).2
      returned :=
        if waits then s.returned ++ [Readiness.closed d] else s.returned }.setStage t .free) := by
  simp only [act, ht]

theorem act_take_of_none (h : s.poller.takeEvent s.conditions d = none) (t : Nat) :
    s.act (.take t d) = none := by
  simp only [act, h]
  cases s.stages[t]? with
  | none => rfl
  | some stage => cases stage <;> rfl

theorem happens_of_act (h : s.act a = some s') : Happens s a s' := by
  cases a with
  | turn d c noted =>
      obtain rfl := Option.some.inj h
      exact .turn
  | register t d trigger =>
      rw [act, register_eq] at h
      split at h
      · rename_i poller ht hp
        split_ifs at hp with hd
        obtain rfl := Except.ok.inj hp
        obtain rfl := Option.some.inj h
        exact .register ht hd
      · rename_i e ht hp
        split_ifs at hp with hd
        obtain rfl := Option.some.inj h
        exact .refuse ht hd
      · cases h
  | watch t =>
      simp only [act] at h
      split at h
      · obtain rfl := Option.some.inj h
        exact .watch ‹_›
      · cases h
  | unwatch t d =>
      simp only [act] at h
      split at h
      · obtain rfl := Option.some.inj h
        exact .unwatch ‹_›
      · cases h
  | deregister t =>
      simp only [act] at h
      split at h
      · obtain rfl := Option.some.inj h
        exact .deregister ‹_›
      · cases h
  | take t d =>
      simp only [act] at h
      split at h
      · rename_i poller ht hp
        obtain rfl := Option.some.inj h
        exact .take ht hp
      · cases h
  | judge t =>
      simp only [act] at h
      split at h
      · rename_i d c ht
        split_ifs at h with hc
        · obtain rfl := Option.some.inj h
          exact .drop ht hc
        · obtain rfl := Option.some.inj h
          have hc' := Bool.eq_false_iff.mpr hc
          rw [judge_of_not_broken hc']
          exact .answer ht hc'
      · cases h

/-! ## Where descriptors are -/

/-- A descriptor in the system's set is in the list, or on its way into it or out of the set. -/
def Sound (s : Watchers δ) : Prop := ∀ d ∈ s.poller.descriptors, d ∈ s.poller.watched ∨ s.Moving d

/-- A thread that was not under way goes on, and the set stays as it is, or the descriptor that it
gets is on its way. -/
theorem Sound.setStage (hs : s.Sound) {poller : Poller δ} {returned : List (Readiness δ)}
    {old stage : Stage δ} (ht : s.stages[t]? = some old)
    (hin : ∀ d ∈ poller.descriptors, d ∈ s.poller.descriptors ∧
      (old.moved? = some d → d ∈ poller.watched) ∨ stage.moved? = some d)
    (hout : ∀ d ∈ s.poller.watched, d ∈ poller.watched ∨ stage.moved? = some d) :
    ({ s with poller, returned }.setStage t stage).Sound := by
  have hlt := (List.getElem?_eq_some_iff.mp ht).choose
  intro d hd
  by_cases hst : stage.moved? = some d
  · exact .inr (moving_setStage (s := { s with poller, returned }) hlt hst)
  · obtain ⟨hmem, hold⟩ := (hin d hd).resolve_right hst
    by_cases ho : old.moved? = some d
    · exact .inl (hold ho)
    · cases hs d hmem with
      | inl hw => exact .inl ((hout d hw).resolve_right hst)
      | inr hm => exact .inr (Moving.setStage (s := { s with poller, returned }) hm ht ho)

theorem Sound.act (hs : s.Sound) (ha : s.act a = some s') : s'.Sound := by
  have hleft : ∀ {ds : List δ} {d e : δ}, e ∈ ds → e ∈ ds.filter (· ≠ d) ∨ some d = some e := by
    intro ds d e he
    by_cases hde : d = e
    · exact .inr (congrArg some hde)
    · exact .inl (List.mem_filter.mpr ⟨he, decide_eq_true (Ne.symm hde)⟩)
  have hnone : ∀ {P : Prop} {e : δ}, none = some e → P :=
    fun h => absurd h (Option.some_ne_none _).symm
  cases happens_of_act ha with
  | turn =>
      rename_i d c noted
      intro e he
      cases noted with
      | true => exact hs e (descriptors_signal s.poller d ▸ he)
      | false => exact hs e he
  | register ht hd =>
      refine hs.setStage ht ?_ fun _ he => .inl he
      intro e he
      rw [descriptors, List.map_append, List.mem_append] at he
      cases he with
      | inl he => exact .inl ⟨he, hnone⟩
      | inr he => exact .inr (congrArg some (List.mem_singleton.mp he).symm)
  | refuse _ _ => exact hs
  | watch ht =>
      refine hs.setStage ht (fun e he => .inl ⟨he, ?_⟩) fun _ he => .inl (List.mem_append_left _ he)
      intro hde
      rw [← Option.some.inj hde]
      exact List.mem_append_right _ List.mem_cons_self
  | unwatch ht => exact hs.setStage ht (fun _ he => .inl ⟨he, hnone⟩) fun _ he => hleft he
  | deregister ht =>
      refine hs.setStage ht ?_ fun e he => .inl ((watched_deregister s.poller _).symm ▸ he)
      intro e he
      rw [descriptors_deregister] at he
      obtain ⟨he, hne⟩ := List.mem_filter.mp he
      exact .inl ⟨he, fun hde => absurd (Option.some.inj hde).symm (of_decide_eq_true hne)⟩
  | take ht hp =>
      obtain ⟨-, hwatched, hdescriptors⟩ := takeEvent_eq_some hp
      exact hs.setStage ht (fun _ he => .inl ⟨hdescriptors ▸ he, hnone⟩) fun _ he => .inl
        (hwatched.symm ▸ he)
  | drop ht _ => exact hs.setStage ht (fun _ he => .inl ⟨he, hnone⟩) fun _ he => hleft he
  | answer ht _ => exact hs.setStage ht (fun _ he => .inl ⟨he, hnone⟩) fun _ he => .inl he

theorem sound_run {conditions : δ → Condition} {threads : Nat} {acts : List (Act δ)}
    (hr : (start conditions threads).run acts = some s) : s.Sound :=
  Run.invariant Sound (fun _ _ _ hs ha => hs.act ha) (fun _ h => absurd h List.not_mem_nil) hr

/-! ## Edges that were reported -/

/-- The edge of a descriptor was reported, and it has got nothing since. -/
def Spent (d : δ) (p : Poller δ) : Prop :=
  ∀ r ∈ p.registered, r.descriptor = d → r.trigger = .edge ∧ r.latched = false

/-- An act by which a descriptor is registered, or by which it gets input. -/
def Act.renews (d : δ) : Act δ → Bool
  | turn e _ noted => e = d && noted
  | register _ e _ => e = d
  | _ => false

theorem Spent.takeEvent_eq_none (hs : Spent d s.poller) :
    s.poller.takeEvent s.conditions d = none := by
  unfold takeEvent
  rw [if_neg]
  intro hany
  obtain ⟨r, hr, hd⟩ := List.any_eq_true.mp hany
  simp only [Bool.and_eq_true, decide_eq_true_eq] at hd
  obtain ⟨hedge, hlatched⟩ := hs r hr hd.1
  simp [reports, hedge, hlatched] at hd

theorem Spent.act (hs : Spent d s.poller) (hd : a.renews d = false) (ha : s.act a = some s') :
    Spent d s'.poller := by
  cases happens_of_act ha with
  | turn =>
      rename_i e c noted
      cases noted with
      | false => exact hs
      | true =>
          have hne : e ≠ d := by simpa [Act.renews] using hd
          intro r hr hrd
          obtain ⟨x, hx, hdescriptor, htrigger, ⟨hre, -⟩ | ⟨-, hlatched⟩⟩ := of_mem_relatch hr
          · exact absurd (hre.symm.trans hrd) hne
          · rw [htrigger, hlatched]
            exact hs x hx (hdescriptor.symm.trans hrd)
  | register _ _ =>
      have hne := of_decide_eq_false hd
      intro r hr hrd
      cases List.mem_append.mp hr with
      | inl hr => exact hs r hr hrd
      | inr hr =>
          obtain rfl := List.mem_singleton.mp hr
          exact absurd hrd hne
  | deregister _ =>
      rename_i e waits _
      have hsub : ∀ r ∈ (s.poller.deregister e true).2.registered, r ∈ s.poller.registered := by
        rw [deregister_eq]
        intro r hr
        split_ifs at hr
        · exact List.mem_of_mem_filter hr
        · exact hr
      exact fun r hr => hs r (hsub r hr)
  | take _ hp =>
      unfold takeEvent at hp
      split_ifs at hp
      obtain rfl := Option.some.inj hp
      intro r hr hrd
      obtain ⟨x, hx, hdescriptor, htrigger, hlatched⟩ := of_mem_relatch hr
      obtain ⟨hedge, hspent⟩ := hs x hx (hdescriptor.symm.trans hrd)
      cases hlatched with
      | inl hlatched => exact ⟨htrigger.trans hedge, hlatched.2⟩
      | inr hlatched => exact ⟨htrigger.trans hedge, hlatched.2.trans hspent⟩
  | refuse _ _ | watch _ | unwatch _ | drop _ _ | answer _ _ => exact hs

/-- After its edge was reported, a descriptor is not reported again until it is registered anew or
gets input. -/
theorem spent_run {acts : List (Act δ)}
    (hedge : ∀ r ∈ s.poller.registered, r.descriptor = d → r.trigger = .edge)
    (ht : s.act (.take t d) = some s') {s'' : Watchers δ} (hr : s'.run acts = some s'')
    (hno : ∀ a ∈ acts, a.renews d = false) : Spent d s''.poller := by
  refine Run.invariant_of_forall (fun s => Spent d s.poller)
    (fun _ _ _ hd hs ha => hs.act hd ha) hno ?_ hr
  cases happens_of_act ht with
  | take _ hp =>
      unfold takeEvent at hp
      split_ifs at hp
      obtain rfl := Option.some.inj hp
      intro r hr hrd
      obtain ⟨x, hx, hdescriptor, htrigger, ⟨-, hlatched⟩ | ⟨hne, -⟩⟩ := of_mem_relatch hr
      · exact ⟨htrigger.trans (hedge x hx (hdescriptor.symm.trans hrd)), hlatched⟩
      · exact absurd hrd hne

/-! ## What waits return -/

/-- What becomes of the events that waits have taken. -/
structure Reported (s : Watchers δ) : Prop where
  look : ∀ t d c, s.stages[t]? = some (.judging d c) → c.broken = false →
    ∃ s', s.act (.judge t) = some s' ∧ s'.poller = s.poller ∧
      ((d ∈ s.poller.watched ∧ s'.returned = s.returned ++ [.readable d]) ∨
        (d ∉ s.poller.watched ∧ s'.returned = s.returned ++ [.idle] ∧
          (d ∉ s.poller.descriptors ∨ (∃ waits, .removing d waits ∈ s.stages) ∨
            .adding d ∈ s.stages)))
  drop : ∀ t d c, s.stages[t]? = some (.judging d c) → c.broken = true →
    ∃ u s', s.act (.judge t) = some u ∧ u.act (.deregister t) = some s' ∧
      s'.returned = s.returned ++ [.closed d] ∧
      s'.poller.watched = s.poller.watched.filter (· ≠ d) ∧
      s'.poller.descriptors = s.poller.descriptors.filter (· ≠ d)
  once : ∀ t d s' acts s'', (∀ r ∈ s.poller.registered, r.descriptor = d → r.trigger = .edge) →
    s.act (.take t d) = some s' → s'.run acts = some s'' → (∀ a ∈ acts, a.renews d = false) →
    ∀ t', s''.act (.take t' d) = none

theorem edges_returned_unless_adding (conditions : δ → Condition) (threads : Nat)
    (acts : List (Act δ)) (hr : (start conditions threads).run acts = some s) : Reported s := by
  have hs := sound_run hr
  constructor
  · intro t d c ht hc
    refine ⟨_, act_judge_of_not_broken ht hc, rfl, ?_⟩
    by_cases hd : d ∈ s.poller.watched
    · exact .inl ⟨hd, by rw [if_pos hd]; rfl⟩
    · refine .inr ⟨hd, by rw [if_neg hd]; rfl, ?_⟩
      by_cases hk : d ∈ s.poller.descriptors
      · obtain ⟨stage, hmem, hmoved⟩ := (hs d hk).resolve_left hd
        cases stage with
        | adding e =>
            obtain rfl := Option.some.inj hmoved
            exact .inr (.inr hmem)
        | removing e waits =>
            obtain rfl := Option.some.inj hmoved
            exact .inr (.inl ⟨waits, hmem⟩)
        | free | judging _ _ => cases hmoved
      · exact .inl hk
  · intro t d c ht hc
    have hlt := (List.getElem?_eq_some_iff.mp ht).choose
    refine ⟨_, _, act_judge_of_broken ht hc,
      act_deregister_of_removing (List.getElem?_set_self hlt), rfl, ?_⟩
    exact ⟨watched_deregister _ d, descriptors_deregister _ d⟩
  · intro t d s' acts s'' hedge ht hmore hno t'
    exact act_take_of_none (spent_run hedge ht hmore hno).takeEvent_eq_none t'

/-- Two edges of a descriptor. The first is returned. Between the second and the look into the list
another thread begins to remove the descriptor. -/
def secondEdge : List (Act Nat) :=
  [.register 0 7 .edge, .watch 0, .turn 7 ⟨true, false⟩ true, .take 1 7, .judge 1,
    .turn 7 ⟨true, false⟩ true, .take 1 7, .unwatch 0 7, .judge 1, .deregister 0]

theorem edges_returned_unless_adding_secondEdge :
    ∃ s, (start (fun _ : Nat => ⟨false, false⟩) 2).run secondEdge = some s ∧ Reported s ∧
      s.returned = [.readable 7, .idle] := by
  refine ⟨_, rfl, ?_, rfl⟩
  exact edges_returned_unless_adding _ 2 secondEdge rfl

/-- A descriptor gets input between the two halves of its registration. -/
def halfAdded : List (Act Nat) :=
  [.register 0 7 .edge, .turn 7 ⟨true, false⟩ true, .take 1 7, .judge 1, .watch 0]

/-- A wait takes the edge of a registered descriptor that nobody removes, and returns nothing.
Afterwards the descriptor is in the list, readable, and no wait reports it. -/
theorem not_every_edge_returned :
    ∃ s, (start (fun _ : Nat => ⟨false, false⟩) 2).run halfAdded = some s ∧ s.returned = [.idle] ∧
      s.poller.descriptors = [7] ∧ s.poller.watched = [7] ∧ s.conditions 7 = ⟨true, false⟩ ∧
      ∀ t, s.act (.take t 7) = none := by
  refine ⟨_, rfl, rfl, rfl, rfl, rfl, ?_⟩
  intro t
  exact act_take_of_none rfl t

end SessionDispatch.Watchers
