import Mathlib
import SessionDispatch.Proofs.Run
import SessionDispatch.Reactor.Poller

/-!
# The list of a poller and the system's set

Clients register, remove and wait, one call after the other, while descriptors get input, are read,
hang up or fail. Both the list and the system's set are changed by a registration, by a removal, and
by a wait that finds a broken descriptor. After every call they hold the same descriptors in the
same order.
-/

namespace SessionDispatch

namespace Poller

variable {δ : Type} {p q : Poller δ} {d : δ}

/-- The descriptors in the system's set, in order of registration. -/
def descriptors (p : Poller δ) : List δ := p.registered.map (·.descriptor)

theorem mem_descriptors : d ∈ p.descriptors ↔ ∃ r ∈ p.registered, r.descriptor = d := List.mem_map

variable [DecidableEq δ]

theorem isRegistered_iff : p.isRegistered d = true ↔ d ∈ p.descriptors := by
  simp only [isRegistered, List.any_eq_true, decide_eq_true_eq, mem_descriptors]

@[simp] theorem descriptors_unwatch (p : Poller δ) (d : δ) :
    (p.unwatch d).descriptors = p.descriptors := rfl

/-- The registrations after the system has noted that a descriptor got input, or has
forgotten it. -/
def relatch (registered : List (Registration δ)) (d : δ) (latched : Bool) : List (Registration δ) :=
  registered.map fun r => if r.descriptor = d then { r with latched } else r

theorem descriptors_relatch (registered : List (Registration δ)) (d : δ) (latched : Bool) :
    (relatch registered d latched).map (·.descriptor) = registered.map (·.descriptor) := by
  rw [relatch, List.map_map]
  refine List.map_congr_left fun r _ => ?_
  dsimp only [Function.comp_apply]
  split <;> rfl

theorem of_mem_relatch {registered : List (Registration δ)} {latched : Bool} {r : Registration δ}
    (hr : r ∈ relatch registered d latched) :
    ∃ x ∈ registered, r.descriptor = x.descriptor ∧ r.trigger = x.trigger ∧
      (r.descriptor = d ∧ r.latched = latched ∨ r.descriptor ≠ d ∧ r.latched = x.latched) := by
  obtain ⟨x, hx, rfl⟩ := List.mem_map.mp hr
  refine ⟨x, hx, ?_⟩
  split_ifs with hd
  · exact ⟨rfl, rfl, .inl ⟨hd, rfl⟩⟩
  · exact ⟨rfl, rfl, .inr ⟨hd, rfl⟩⟩

@[simp] theorem descriptors_signal (p : Poller δ) (d : δ) :
    (p.signal d).descriptors = p.descriptors :=
  descriptors_relatch p.registered d true

/-- A descriptor enters the system's set behind the others, unless it is there. -/
theorem register_eq (p : Poller δ) (d : δ) (trigger : Trigger) (c : Condition) :
    p.register d trigger (some c) =
      if d ∈ p.descriptors then .error .alreadyExists
      else .ok { p with registered := p.registered ++ [⟨d, trigger, c.isReady⟩] } := by
  unfold register
  exact if_congr isRegistered_iff rfl rfl

/-- The system takes out a descriptor that is in its set, and refuses to take out another. -/
theorem deregister_eq (p : Poller δ) (d : δ) :
    p.deregister d true =
      if d ∈ p.descriptors then (none,
        { p with registered := p.registered.filter (·.descriptor ≠ d) })
      else (some .notFound, p) := by
  rw [deregister, Bool.not_true, if_neg Bool.false_ne_true]
  exact if_congr isRegistered_iff rfl rfl

theorem descriptors_filter (p : Poller δ) (d : δ) :
    ({ p with registered := p.registered.filter (·.descriptor ≠ d) } : Poller δ).descriptors =
      p.descriptors.filter (· ≠ d) := by
  unfold descriptors
  rw [List.filter_map]
  rfl

@[simp] theorem descriptors_deregister (p : Poller δ) (d : δ) :
    (p.deregister d true).2.descriptors = p.descriptors.filter (· ≠ d) := by
  rw [deregister_eq]
  split_ifs with hd
  · exact descriptors_filter p d
  · symm
    rw [List.filter_eq_self]
    intro x hx
    exact decide_eq_true fun h => hd (h ▸ hx)

@[simp] theorem watched_deregister (p : Poller δ) (d : δ) :
    (p.deregister d true).2.watched = p.watched := by
  rw [deregister_eq]
  split <;> rfl

/-- An event can be taken of a descriptor that is in the system's set and that the system
reports. -/
theorem takeEvent_eq_some {conditions : δ → Condition} (h : p.takeEvent conditions d = some q) :
    (∃ r ∈ p.registered, r.descriptor = d ∧ reports conditions r = true) ∧
      q.watched = p.watched ∧ q.descriptors = p.descriptors := by
  unfold takeEvent at h
  split_ifs at h with hr
  obtain rfl := Option.some.inj h
  exact ⟨by simpa using hr, rfl, descriptors_relatch p.registered d false⟩

/-- The list holds the same descriptors as the system's set, in the same order and each once. -/
structure Mirrored (p : Poller δ) : Prop where
  same : p.watched = p.descriptors
  nodup : p.watched.Nodup

namespace Mirrored

omit [DecidableEq δ] in
theorem of_same (hp : p.Mirrored) (hw : q.watched = p.watched)
    (hk : q.descriptors = p.descriptors) : q.Mirrored where
  same := hw.trans (hp.same.trans hk.symm)
  nodup := hw ▸ hp.nodup

omit [DecidableEq δ] in
theorem concat (hp : p.Mirrored) (hd : d ∉ p.watched) (hw : q.watched = p.watched ++ [d])
    (hk : q.descriptors = p.descriptors ++ [d]) : q.Mirrored where
  same := by rw [hw, hk, hp.same]
  nodup := by
    rw [hw, List.nodup_append]
    refine ⟨hp.nodup, List.nodup_singleton d, ?_⟩
    rintro x hx y hy rfl
    exact hd (List.mem_singleton.mp hy ▸ hx)

theorem filter (hp : p.Mirrored) (hw : q.watched = p.watched.filter (· ≠ d))
    (hk : q.descriptors = p.descriptors.filter (· ≠ d)) : q.Mirrored where
  same := by rw [hw, hk, hp.same]
  nodup := hw ▸ hp.nodup.filter _

theorem add_eq (hp : p.Mirrored) (d : δ) (trigger : Trigger) (c : Condition) :
    p.add d trigger (some c) =
      if d ∈ p.watched then .error .alreadyExists
      else .ok ⟨p.registered ++ [⟨d, trigger, c.isReady⟩], p.watched ++ [d]⟩ := by
  unfold add
  rw [register_eq, ← hp.same]
  split <;> rfl

/-- A removal takes a descriptor out of both, or changes neither. -/
theorem remove_eq (hp : p.Mirrored) (d : δ) :
    p.remove d true =
      if d ∈ p.watched then
        (none, ⟨p.registered.filter fun r => r.descriptor ≠ d, p.watched.filter (· ≠ d)⟩)
      else (some .notFound, p) := by
  unfold remove
  rw [deregister_eq, descriptors_unwatch, ← hp.same]
  by_cases hd : d ∈ p.watched
  · rw [if_pos hd, if_pos hd]
    rfl
  · have hfilter : p.watched.filter (· ≠ d) = p.watched := by
      rw [List.filter_eq_self]
      intro x hx
      exact decide_eq_true fun h => hd (h ▸ hx)
    rw [if_neg hd, if_neg hd, unwatch, hfilter]

end Mirrored

end Poller

/-! ## Calls -/

/-- A poller and the conditions of all descriptors, which are open. -/
structure Watch (δ : Type) where
  poller : Poller δ
  conditions : δ → Condition

namespace Watch

variable {δ : Type} [DecidableEq δ]

inductive Call (δ : Type)
  | turn (d : δ) (c : Condition) (noted : Bool)
  | add (d : δ) (trigger : Trigger)
  | remove (d : δ)
  | wait (event : Option δ)
deriving DecidableEq, Repr

inductive Answer (δ : Type)
  | turned
  | added (refusal : Option OsError)
  | removed (refusal : Option OsError)
  | waited (r : Readiness δ)
deriving DecidableEq, Repr

/-- A call and its answer; none if the system has no such event. -/
def call (w : Watch δ) : Call δ → Option (Answer δ × Watch δ)
  | .turn d c noted => some (.turned,
      ⟨if noted then w.poller.signal d else w.poller, Function.update w.conditions d c⟩)
  | .add d trigger =>
    match w.poller.add d trigger (some (w.conditions d)) with
    | .ok poller => some (.added none, { w with poller })
    | .error e => some (.added (some e), w)
  | .remove d =>
    let (refusal, poller) := w.poller.remove d true
    some (.removed refusal, { w with poller })
  | .wait none => some (.waited .idle, w)
  | .wait (some d) =>
    (w.poller.takeEvent w.conditions d).map fun poller =>
      let (r, poller) := poller.judge w.conditions d
      (.waited r, { w with poller })

def act (w : Watch δ) (c : Call δ) : Option (Watch δ) := (w.call c).map (·.2)

def start (conditions : δ → Condition) : Watch δ := ⟨.new, conditions⟩

def run (w : Watch δ) (calls : List (Call δ)) : Option (Watch δ) := calls.foldlM act w

def history (w : Watch δ) (calls : List (Call δ)) : List (Call δ × Answer δ) :=
  Run.observe act (fun w c => (w.call c).map fun r => (c, r.1)) w calls

/-- The descriptors of which the answers tell that they were registered and not removed since, in
order of registration. -/
def standing (history : List (Call δ × Answer δ)) : List δ :=
  history.foldl (fun ds entry =>
    match entry with
    | (.add d _, .added none) => ds ++ [d]
    | (.remove d, .removed none) => ds.filter (· ≠ d)
    | (.wait _, .waited (.closed d)) => ds.filter (· ≠ d)
    | _ => ds) []

def Answer.Reports (d : δ) : Answer δ → Prop
  | waited (.readable e) | waited (.closed e) => e = d
  | _ => False

/-! ## What one call does -/

/-- Both hold what they held before. -/
def Keeps (w w' : Watch δ) : Prop :=
  w'.poller.watched = w.poller.watched ∧ w'.poller.descriptors = w.poller.descriptors

/-- A descriptor has left both, and no other has. -/
def Loses (w : Watch δ) (d : δ) (w' : Watch δ) : Prop :=
  w'.poller.watched = w.poller.watched.filter (· ≠ d) ∧
    w'.poller.descriptors = w.poller.descriptors.filter (· ≠ d)

/-- A descriptor has entered both behind the others. -/
def Gains (w : Watch δ) (d : δ) (w' : Watch δ) : Prop :=
  w'.poller.watched = w.poller.watched ++ [d] ∧ w'.poller.descriptors = w.poller.descriptors ++ [d]

inductive Does (w : Watch δ) : Call δ → Answer δ → Watch δ → Prop
  | turn {d : δ} {c : Condition} {noted : Bool} {w' : Watch δ} (hk : w.Keeps w') :
      Does w (.turn d c noted) .turned w'
  | add {d : δ} {trigger : Trigger} {w' : Watch δ} (hd : d ∉ w.poller.watched) (hg : w.Gains d w') :
      Does w (.add d trigger) (.added none) w'
  | addAgain {d : δ} {trigger : Trigger} (hd : d ∈ w.poller.watched) :
      Does w (.add d trigger) (.added (some .alreadyExists)) w
  | remove {d : δ} {w' : Watch δ} (hd : d ∈ w.poller.watched) (hl : w.Loses d w') :
      Does w (.remove d) (.removed none) w'
  | removeUnknown {d : δ} (hd : d ∉ w.poller.watched) : Does w (.remove d)
      (.removed (some .notFound)) w
  | idle : Does w (.wait none) (.waited .idle) w
  | readable {d : δ} {w' : Watch δ} (hd : d ∈ w.poller.watched)
      (hr : (w.conditions d).readable = true)
      (hb : (w.conditions d).broken = false) (hk : w.Keeps w') :
      Does w (.wait (some d)) (.waited (.readable d)) w'
  | closed {d : δ} {w' : Watch δ} (hd : d ∈ w.poller.watched) (hb : (w.conditions d).broken = true)
      (hl : w.Loses d w') : Does w (.wait (some d)) (.waited (.closed d)) w'

section

variable {w w' : Watch δ} {c : Call δ} {answer : Answer δ}

open Poller

theorem does_add (hw : w.poller.Mirrored) {d : δ} {trigger : Trigger}
    (h : w.call (.add d trigger) = some (answer, w')) :
    Does w (.add d trigger) answer w' := by
  by_cases hd : d ∈ w.poller.watched
  · simp only [call, hw.add_eq, if_pos hd, Option.some.injEq, Prod.mk.injEq] at h
    obtain ⟨rfl, rfl⟩ := h
    exact .addAgain hd
  · simp only [call, hw.add_eq, if_neg hd, Option.some.injEq, Prod.mk.injEq] at h
    obtain ⟨rfl, rfl⟩ := h
    exact .add hd ⟨rfl, List.map_append⟩

theorem does_remove (hw : w.poller.Mirrored) {d : δ} (h : w.call (.remove d) = some (answer, w')) :
    Does w (.remove d) answer w' := by
  by_cases hd : d ∈ w.poller.watched
  · simp only [call, hw.remove_eq, if_pos hd, Option.some.injEq, Prod.mk.injEq] at h
    obtain ⟨rfl, rfl⟩ := h
    exact .remove hd ⟨rfl, descriptors_filter w.poller d⟩
  · simp only [call, hw.remove_eq, if_neg hd, Option.some.injEq, Prod.mk.injEq] at h
    obtain ⟨rfl, rfl⟩ := h
    exact .removeUnknown hd

/-- The system hands out events of descriptors in its set only, and these are in the list. So no
event is passed over, and a descriptor that is reported and not broken has input. -/
theorem does_wait (hw : w.poller.Mirrored) {d : δ}
    (h : w.call (.wait (some d)) = some (answer, w')) :
    Does w (.wait (some d)) answer w' := by
  obtain ⟨p, hp, hj⟩ := Option.map_eq_some_iff.mp h
  obtain ⟨⟨r, hr, rfl, hreports⟩, hwatched, hdescriptors⟩ := takeEvent_eq_some hp
  have hd : r.descriptor ∈ w.poller.watched := hw.same ▸ mem_descriptors.mpr ⟨r, hr, rfl⟩
  have hm : p.Mirrored := hw.of_same hwatched hdescriptors
  have hd' : r.descriptor ∈ p.watched := hwatched ▸ hd
  cases hb : (w.conditions r.descriptor).broken with
  | true =>
      simp only [judge, hb, if_true, hm.remove_eq, if_pos hd', Prod.mk.injEq] at hj
      obtain ⟨rfl, rfl⟩ := hj
      refine .closed hd hb ⟨?_, ?_⟩
      · rw [← hwatched]
      · rw [← hdescriptors, ← descriptors_filter]
        rfl
  | false =>
      simp only [judge, hb, Bool.false_eq_true, if_false, if_pos hd', Prod.mk.injEq] at hj
      obtain ⟨rfl, rfl⟩ := hj
      have hready : (w.conditions r.descriptor).isReady = true :=
        (Bool.and_eq_true_iff.mp hreports).1
      rw [Condition.isReady, hb, Bool.or_false] at hready
      exact .readable hd hready hb ⟨hwatched, hdescriptors⟩

theorem does_of_call (hw : w.poller.Mirrored) (h : w.call c = some (answer, w')) :
    Does w c answer w' := by
  cases c with
  | turn d c noted =>
      obtain ⟨rfl, rfl⟩ := Prod.mk.inj (Option.some.inj h)
      cases noted with
      | true => exact .turn ⟨rfl, descriptors_signal w.poller d⟩
      | false => exact .turn ⟨rfl, rfl⟩
  | add d trigger => exact does_add hw h
  | remove d => exact does_remove hw h
  | wait event =>
      cases event with
      | none =>
          obtain ⟨rfl, rfl⟩ := Prod.mk.inj (Option.some.inj h)
          exact .idle
      | some d => exact does_wait hw h

theorem Does.mirrored (h : Does w c answer w') (hw : w.poller.Mirrored) : w'.poller.Mirrored := by
  cases h with
  | turn hk | readable _ _ _ hk => exact hw.of_same hk.1 hk.2
  | add hd hg => exact hw.concat hd hg.1 hg.2
  | remove _ hl | closed _ _ hl => exact hw.filter hl.1 hl.2
  | addAgain _ | removeUnknown _ | idle => exact hw

/-- The list changes as the answer tells. -/
theorem Does.standing_concat (h : Does w c answer w') {before : List (Call δ × Answer δ)}
    (hs : w.poller.watched = standing before) :
    w'.poller.watched = standing (before ++ [(c, answer)]) := by
  rw [standing, List.foldl_concat, ← standing, ← hs]
  cases h with
  | turn hk | readable _ _ _ hk => exact hk.1
  | add _ hg => exact hg.1
  | remove _ hl | closed _ _ hl => exact hl.1
  | addAgain _ | removeUnknown _ | idle => rfl

/-- A descriptor that is not in the list is not reported, and enters it by a registration only. -/
theorem Does.silent (h : Does w c answer w') {d : δ} (hd : d ∉ w.poller.watched)
    (hc : ∀ trigger, c ≠ .add d trigger) :
    d ∉ w'.poller.watched ∧ ¬ answer.Reports d := by
  cases h with
  | turn hk => exact ⟨hk.1 ▸ hd, id⟩
  | add _ hg =>
      rename_i e trigger _
      refine ⟨?_, id⟩
      rw [hg.1]
      intro hmem
      cases List.mem_append.mp hmem with
      | inl hmem => exact hd hmem
      | inr hmem => exact hc trigger (List.mem_singleton.mp hmem ▸ rfl)
  | remove _ hl => exact ⟨hl.1 ▸ fun hmem => hd (List.mem_of_mem_filter hmem), id⟩
  | closed he _ hl =>
      refine ⟨hl.1 ▸ fun hmem => hd (List.mem_of_mem_filter hmem), ?_⟩
      rintro rfl
      exact hd he
  | readable he _ _ hk =>
      refine ⟨hk.1 ▸ hd, ?_⟩
      rintro rfl
      exact hd he
  | addAgain _ | removeUnknown _ | idle => exact ⟨hd, id⟩

end

/-- The wait that takes the event of the descriptor registered first is one of those that a client
can make. -/
theorem call_wait (w : Watch δ) :
    ∃ event w', w.call (.wait event) = some (.waited (w.poller.wait w.conditions).1, w') ∧
      w'.poller.watched = (w.poller.wait w.conditions).2.watched ∧
      w'.poller.descriptors = (w.poller.wait w.conditions).2.descriptors := by
  unfold Poller.wait
  cases hf : w.poller.registered.find? (Poller.reports w.conditions) with
  | none =>
      refine ⟨none, w, rfl, rfl, ?_⟩
      simp only [Poller.descriptors, List.map_map]
      rfl
  | some r =>
      have hany : w.poller.registered.any
          (fun x => x.descriptor = r.descriptor && Poller.reports w.conditions x) = true := by
        rw [List.any_eq_true]
        exact ⟨r, List.mem_of_find?_eq_some hf, by simpa using List.find?_some hf⟩
      have htake : ∃ p, w.poller.takeEvent w.conditions r.descriptor = some p := ⟨_, if_pos hany⟩
      obtain ⟨p, hp⟩ := htake
      dsimp only
      rw [hp]
      exact ⟨some r.descriptor, { w with poller := (p.judge w.conditions r.descriptor).2 },
        Option.map_eq_some_iff.mpr ⟨p, hp, rfl⟩, rfl, rfl⟩

/-! ## Runs -/

section

variable {w w' : Watch δ} {calls : List (Call δ)}

theorem mirrored_run {conditions : δ → Condition} (hr : (start conditions).run calls = some w) :
    w.poller.Mirrored ∧ w.poller.watched = standing ((start conditions).history calls) := by
  have hstart : (start conditions).poller.Mirrored ∧
      (start conditions).poller.watched = standing [] :=
    ⟨⟨rfl, List.nodup_nil⟩, rfl⟩
  refine Run.invariant_observe _ (fun w before => w.poller.Mirrored ∧
    w.poller.watched = standing before) ?_ hstart hr
  rintro w before c w' ⟨hw, hs⟩ hc
  obtain ⟨⟨answer, w'⟩, hcall, rfl⟩ := Option.map_eq_some_iff.mp hc
  have hdoes := does_of_call hw hcall
  rw [hcall]
  exact ⟨hdoes.mirrored hw, hdoes.standing_concat hs⟩

theorem silent_run (hw : w.poller.Mirrored) {d : δ} (hd : d ∉ w.poller.watched)
    (hr : w.run calls = some w') (hno : ∀ trigger, .add d trigger ∉ calls) :
    ∀ entry ∈ w.history calls, ¬ entry.2.Reports d := by
  induction calls generalizing w with
  | nil => exact fun _ h => absurd h List.not_mem_nil
  | cons c calls ih =>
      obtain ⟨u, hu, hrest⟩ := Run.foldlM_cons_eq_some hr
      obtain ⟨⟨answer, u⟩, hcall, rfl⟩ := Option.map_eq_some_iff.mp hu
      have hdoes := does_of_call hw hcall
      obtain ⟨hd', hreports⟩ :=
        hdoes.silent hd fun trigger h => hno trigger (h ▸ List.mem_cons_self)
      have hhistory : w.history (c :: calls) = (c, answer) :: u.history calls := by
        simp [history, Run.observe, act, hcall]
      rw [hhistory, List.forall_mem_cons]
      exact ⟨hreports,
        ih (hdoes.mirrored hw) hd' hrest fun trigger h => hno trigger (List.mem_cons_of_mem _ h)⟩

/-- What holds of the list and of the system's set after some calls with their answers. -/
structure Mirrors (before : List (Call δ × Answer δ)) (w : Watch δ) : Prop where
  same : w.poller.watched = w.poller.descriptors
  nodup : w.poller.watched.Nodup
  order : w.poller.watched = standing before
  does : ∀ c answer w', w.call c = some (answer, w') → Does w c answer w'
  wait : ∃ event w', w.call (.wait event) = some (.waited (w.poller.wait w.conditions).1, w') ∧
    w'.poller.watched = (w.poller.wait w.conditions).2.watched ∧
    w'.poller.descriptors = (w.poller.wait w.conditions).2.descriptors
  silent : ∀ d calls w', d ∉ w.poller.watched → w.run calls = some w' →
    (∀ trigger, .add d trigger ∉ calls) →
    ∀ entry ∈ w.history calls, ¬ entry.2.Reports d

theorem list_mirrors_system (conditions : δ → Condition) (calls : List (Call δ))
    (hr : (start conditions).run calls = some w) :
    Mirrors ((start conditions).history calls) w := by
  obtain ⟨hw, hs⟩ := mirrored_run hr
  constructor
  · exact hw.same
  · exact hw.nodup
  · exact hs
  · exact fun _ _ _ hc => does_of_call hw hc
  · exact call_wait w
  · exact fun _ _ _ hd hmore hno => silent_run hw hd hmore hno

end

/-- Three descriptors. The second is reported, the first hangs up with input pending, and after that
it can neither be removed nor be reported; the third is registered once more in vain. -/
def hangUp : List (Call Nat) :=
  [.add 1 .level, .add 2 .edge, .turn 2 ⟨true, false⟩ true, .wait (some 2), .add 3 .level,
    .turn 1 ⟨true, true⟩ true, .wait (some 1), .remove 1, .add 3 .edge, .wait none]

theorem list_mirrors_system_hangUp :
    ∃ w, (start fun _ : Nat => ⟨false, false⟩).run hangUp = some w ∧
      Mirrors ((start fun _ : Nat => ⟨false, false⟩).history hangUp) w ∧ w.poller.watched = [2, 3] ∧
      ((start fun _ : Nat => ⟨false, false⟩).history hangUp).map (·.2) =
        [.added none, .added none, .turned, .waited (.readable 2), .added none, .turned,
          .waited (.closed 1), .removed (some .notFound), .added (some .alreadyExists),
          .waited .idle] := by
  refine ⟨_, rfl, ?_, rfl, rfl⟩
  exact list_mirrors_system _ hangUp rfl

end Watch

end SessionDispatch
