import SessionDispatch.Proofs.Timer.Ordering

/-!
# When the list is in the order of the deadlines

Events are armed behind those with no later deadline, and a pass sorts them by what remains. The two
orders agree as long as the clock can show when the events are due. A deadline past the end of the
clock is cut short to a century from the last pass, however much more remains, and so comes before
that of an event that is due later than in a century and within the clock, behind which a pass puts
it. Then a binary search finds the place of a new event only by chance.
-/

namespace SessionDispatch.Timer

variable {α : Type}

/-- The nearest deadline stands first. -/
def Sorted (events : List (Event α)) : Prop := events.Pairwise (·.deadline ≤ ·.deadline)

section Sorted

variable {events : List (Event α)}

theorem Sorted.insert (hs : Sorted events) (e : Event α) : Sorted (insert events e) := by
  apply pairwise_insert
  · exact hs.imp fun h => ⟨h, h⟩
  · exact fun _ _ h => h
  · exact fun _ _ h => Nat.le_of_lt h

theorem Sorted.head_le {first : Event α} {rest : List (Event α)} (hs : Sorted (first :: rest)) :
    ∀ e ∈ first :: rest, first.deadline ≤ e.deadline :=
  List.forall_mem_cons.mpr ⟨Nat.le_refl _, (List.pairwise_cons.mp hs).1⟩

theorem sorted_iff : Sorted events ↔ (events.map (·.deadline)).Pairwise (· ≤ ·) :=
  List.pairwise_map.symm

end Sorted

/-! ## Passes -/

section Pass

variable {t : Timer α} {now : Instant}

theorem pairwise_remaining_pass (t : Timer α) (now : Instant) :
    (t.pass now).2.events.Pairwise (·.remaining ≤ ·.remaining) := by
  have hsort :
      (t.pass now).2.events.Pairwise fun a b => decide (a.remaining ≤ b.remaining) = true := by
    apply List.pairwise_mergeSort
    · intro a b c hab hbc
      exact decide_eq_true (Nat.le_trans (of_decide_eq_true hab) (of_decide_eq_true hbc))
    · intro a b
      simpa using Nat.le_total a.remaining b.remaining
  exact hsort.imp of_decide_eq_true

theorem due_pass {x : Event α} (hx : x ∈ (t.pass now).2.events) : x.due = now + x.remaining := by
  rw [Event.due, checkpoint_pass hx]

/-- A deadline that is cut short depends on the last pass only. -/
theorem deadline_pass_of_late {x : Event α} (hx : x ∈ (t.pass now).2.events)
    (h : Instant.latest < x.due) :
    x.deadline = (Instant.after? now farFuture).getD now := by
  have hlate : ¬x.checkpoint + x.remaining ≤ Instant.latest := Nat.not_le.mpr h
  rw [Event.deadline, Instant.after?, if_neg hlate, Option.orElse, checkpoint_pass hx]

/-- A pass brings all events to one instant, so that the order by what remains is that of the
deadlines, unless one of them is cut short to an instant before another. -/
theorem sorted_pass_iff :
    Sorted (t.pass now).2.events ↔ ∀ x ∈ (t.pass now).2.events, ∀ y ∈ (t.pass now).2.events,
      x.due ≤ Instant.latest → Instant.latest < y.due → x.deadline ≤ y.deadline := by
  have hsort := pairwise_remaining_pass t now
  constructor
  · intro hs x hx y hy hxd hyd
    rw [due_pass hx] at hxd
    rw [due_pass hy] at hyd
    obtain ⟨i, hi, rfl⟩ := List.mem_iff_getElem.mp hx
    obtain ⟨j, hj, rfl⟩ := List.mem_iff_getElem.mp hy
    rcases Nat.lt_trichotomy i j with hij | rfl | hij
    · exact List.pairwise_iff_getElem.mp hs i j hi hj hij
    · exact Nat.le_refl _
    · have hle := List.pairwise_iff_getElem.mp hsort j i hj hi hij
      lia
  · intro h
    apply hsort.imp_of_mem
    intro x y hx hy hxy
    have hdue : x.due ≤ y.due := by
      rw [due_pass hx, due_pass hy]
      exact Nat.add_le_add_left hxy now
    by_cases hyd : y.due ≤ Instant.latest
    · rw [Event.deadline_eq_due hyd, Event.deadline_eq_due (Nat.le_trans hdue hyd)]
      exact hdue
    · have hyl := Nat.lt_of_not_le hyd
      by_cases hxd : x.due ≤ Instant.latest
      · exact h x hx y hy hxd hyl
      · rw [deadline_pass_of_late hx (Nat.lt_of_not_le hxd), deadline_pass_of_late hy hyl]

end Pass

/-! ## Timeouts that leave the list in order -/

/-- What remains of an event is at most `limit`, or its deadline is cut short to exactly that. -/
def Event.Tame (limit : Span) (e : Event α) : Prop :=
  (e.timeout ≤ limit ∧ e.remaining ≤ limit) ∨ (limit = farFuture ∧ Instant.latest < e.due)

section Tame

variable {limit : Span} {now : Instant} {e : Event α} {t : Timer α}

theorem Event.Tame.advance (h : e.Tame limit) (hc : e.checkpoint ≤ now)
    (hn : now ≤ Instant.latest) :
    (e.advance now).2.Tame limit := by
  cases h with
  | inl h =>
      left
      constructor
      · rw [Event.advance_timeout]
        exact h.1
      · exact Event.advance_remaining_le h.1 h.2 now
  | inr h =>
      obtain ⟨hlimit, hlate⟩ := h
      right
      rw [Event.due_advance hc (Nat.lt_of_le_of_lt hn hlate)]
      exact ⟨hlimit, hlate⟩

theorem tame_pass (v : t.Valid now) (h : ∀ e ∈ t.events, e.Tame limit) (hn : now ≤ Instant.latest) :
    ∀ e ∈ (t.pass now).2.events, e.Tame limit := by
  intro x hx
  obtain ⟨e, he, rfl⟩ := exists_of_mem_pass hx
  exact (h e he).advance (v.checkpoint_le e he) hn

theorem sorted_pass_of_tame (v : t.Valid now) (h : ∀ e ∈ t.events, e.Tame limit)
    (hn : now + limit ≤ Instant.latest) :
    Sorted (t.pass now).2.events := by
  have htame := tame_pass v h (Nat.le_trans (Nat.le_add_right now limit) hn)
  rw [sorted_pass_iff]
  intro x hx y hy hxd hyd
  have hx' := (htame x hx).resolve_right fun h => Nat.not_lt.mpr hxd h.2
  have hy' : limit = farFuture := by
    cases htame y hy with
    | inl h =>
        rw [due_pass hy] at hyd
        have hle := Nat.add_le_add_left h.2 now
        lia
    | inr h => exact h.1
  rw [Event.deadline_eq_due hxd, due_pass hx, deadline_pass_of_late hy hyd, Instant.after?, ← hy',
    if_pos hn]
  exact Nat.add_le_add_left hx'.2 now

end Tame

namespace Clocked

/-- What the events that are armed in a run wait for when they are armed. -/
def asked (s : Clocked α) : List (Call α) → List Term
  | [] => []
  | c :: calls =>
    let rest := (s.call c).2.asked calls
    match c with
    | .schedule timeout repeats _ =>
        ⟨s.now, if repeats then max timeout minPeriod else timeout⟩ :: rest
    | _ => rest

/-- No timeout of a run is longer than some limit, or than a century unless it reaches past the end
of the clock, and the run ends early enough for deadlines within the limit to be instants that the
clock can show. -/
def Moderate (s : Clocked α) (calls : List (Call α)) : Prop :=
  ∃ limit, (s.run calls).now + limit ≤ Instant.latest ∧
    ∀ w ∈ s.asked calls, w.timeout ≤ limit ∨ limit = farFuture ∧ Instant.latest < w.due

end Clocked

section Runs

variable {s : Clocked α} {limit : Span}

/-- Only a pass can leave the order. -/
theorem sorted_call (hs : Sorted s.timer.events) {c : Call α} (hc : c ≠ .pass) :
    Sorted (s.call c).2.timer.events := by
  cases c with
  | schedule timeout repeats action => exact hs.insert _
  | cancel id => exact List.Pairwise.sublist List.eraseP_sublist hs
  | pass => exact absurd rfl hc
  | tick d => exact hs

theorem tame_call (v : s.timer.Valid s.now) (h : ∀ e ∈ s.timer.events, e.Tame limit) {c : Call α}
    (hasked : ∀ w ∈ s.asked [c], w.timeout ≤ limit ∨ limit = farFuture ∧ Instant.latest < w.due)
    (hn : s.now ≤ Instant.latest) : ∀ e ∈ (s.call c).2.timer.events, e.Tame limit := by
  cases c with
  | schedule timeout repeats action =>
      intro e he
      cases (mem_schedule ..).mp he with
      | inl he =>
          have hw := hasked _ List.mem_cons_self
          subst he
          exact hw.imp (fun h => ⟨h, h⟩) id
      | inr he => exact h e he
  | cancel id => exact fun e he => h e (v.mem_cancel.mp he).1
  | pass => exact tame_pass v h hn
  | tick d => exact h

theorem sorted_run (v : s.timer.Valid s.now) (hs : Sorted s.timer.events)
    (h : ∀ e ∈ s.timer.events, e.Tame limit) {calls : List (Call α)}
    (hn : (s.run calls).now + limit ≤ Instant.latest)
    (hasked : ∀ w ∈ s.asked calls, w.timeout ≤ limit ∨ limit = farFuture ∧ Instant.latest < w.due) :
    Sorted (s.run calls).timer.events := by
  induction calls generalizing s with
  | nil => exact hs
  | cons c calls ih =>
      have hstart : s.now + limit ≤ Instant.latest := by
        rw [s.now_run] at hn
        lia
      have hnow : s.now ≤ Instant.latest := Nat.le_trans (Nat.le_add_right _ _) hstart
      have hfirst : ∀ w ∈ s.asked [c], w ∈ s.asked (c :: calls) := by
        intro w hw
        cases c with
        | schedule timeout repeats action =>
            exact List.mem_cons.mpr (.inl (List.mem_singleton.mp hw))
        | cancel _ | pass | tick _ => cases hw
      have hrest : ∀ w ∈ (s.call c).2.asked calls, w ∈ s.asked (c :: calls) := by
        intro w hw
        cases c with
        | schedule timeout repeats action => exact List.mem_cons_of_mem _ hw
        | cancel _ | pass | tick _ => exact hw
      have hsorted : Sorted (s.call c).2.timer.events := by
        by_cases hc : c = .pass
        · subst hc
          exact sorted_pass_of_tame v h hstart
        · exact sorted_call hs hc
      exact ih (Clocked.valid_call v c) hsorted
        (tame_call v h (fun w hw => hasked w (hfirst w hw)) hnow) hn
        fun w hw => hasked w (hrest w hw)

/-- A run of moderate timeouts keeps the list in the order of the deadlines, and only a pass can
leave this order at all: it does if it cuts a deadline short to an instant before that of another
event. In that order the nearest deadline stands first, and a binary search finds the one place at
which an event can be armed. -/
theorem sorted_by_deadline (now : Instant) (calls : List (Call α)) :
    let s := ({ now } : Clocked α).run calls
    (({ now } : Clocked α).Moderate calls → Sorted s.timer.events) ∧
    (Sorted (s.call .pass).2.timer.events ↔
      ∀ x ∈ (s.call .pass).2.timer.events, ∀ y ∈ (s.call .pass).2.timer.events,
        x.due ≤ Instant.latest → Instant.latest < y.due → x.deadline ≤ y.deadline) ∧
    (Sorted s.timer.events →
      (∀ c, c ≠ .pass → Sorted (s.call c).2.timer.events) ∧
      (∀ first rest, s.timer.events = first :: rest →
        ∀ e ∈ s.timer.events, first.deadline ≤ e.deadline) ∧
      ∀ e, ∃ front back, s.timer.events = front ++ back ∧ (∀ x ∈ front, x.deadline ≤ e.deadline) ∧
        (∀ x ∈ back, e.deadline < x.deadline) ∧ insert s.timer.events e = front ++ e :: back) := by
  intro s
  refine ⟨?_, sorted_pass_iff, fun hs => ⟨fun c => sorted_call hs, ?_, exists_insert hs⟩⟩
  · rintro ⟨limit, hn, hasked⟩
    exact sorted_run (s := { now }) (valid_new now) List.Pairwise.nil nofun hn hasked
  · intro first rest hevents e he
    rw [hevents] at hs he
    exact hs.head_le e he

end Runs

def years (n : Nat) : Span := .ofSecs (n * 365 * 24 * 60 * 60)

/-- An event without end, whose deadline a pass puts off again and again, beside events that are due
within a century. -/
def endless : List (Call Char) :=
  [.schedule .longest false 'x', .schedule (years 60) false 'a', .tick (years 40), .pass,
    .schedule (years 100) true 'r', .tick (years 30), .pass]

theorem sorted_by_deadline_endless :
    let s := ({ now := 0 } : Clocked Char).run endless
    ({ now := 0 } : Clocked Char).Moderate endless ∧ Sorted s.timer.events ∧
      s.timer.events.map (·.id) = [3, 1] := by
  intro s
  have hm : ({ now := 0 } : Clocked Char).Moderate endless := by
    refine ⟨farFuture, ?_, ?_⟩
    · have hnow : (({ now := 0 } : Clocked Char).run endless).now = years 70 := by cbv
      rw [hnow]
      decide
    · have hasked : ({ now := 0 } : Clocked Char).asked endless =
          [⟨0, .longest⟩, ⟨0, years 60⟩, ⟨years 40, years 100⟩] := by cbv
      rw [hasked]
      decide
  have hids : (({ now := 0 } : Clocked Char).run endless).timer.events.map (·.id) = [3, 1] := by cbv
  exact ⟨hm, (sorted_by_deadline _ endless).1 hm, hids⟩

/-- Two events without end are armed beside two that are due in 200 and in 250 years, and after a
pass one that is due in 220 years. -/
def crossed : List (Call Char) :=
  [.schedule (years 200) false 'a', .schedule (years 250) false 'b', .schedule .longest false 'x',
    .schedule .longest false 'y', .pass, .schedule (years 220) false 'c']

/-- The pass leaves deadlines in 200, 250, 100 and 100 years, so that the first is not the nearest,
and the binary search puts the new event last, behind one that is due 30 years later. -/
theorem not_sorted_crossed :
    let s := fun n => ({ now := 0 } : Clocked Char).run (crossed.take n)
    Sorted (s 4).timer.events ∧ ¬Sorted (s 5).timer.events ∧
      (s 5).timer.events.map (·.deadline) = [200, 250, 100, 100].map years ∧
      (s 6).timer.events.map (·.deadline) = [200, 250, 100, 100, 220].map years := by
  intro s
  have hbefore : (({ now := 0 } : Clocked Char).run (crossed.take 4)).timer.events.map
      (·.deadline) = [100, 100, 200, 250].map years := by cbv
  have hafter : (({ now := 0 } : Clocked Char).run (crossed.take 5)).timer.events.map
      (·.deadline) = [200, 250, 100, 100].map years := by cbv
  have hlast : (({ now := 0 } : Clocked Char).run (crossed.take 6)).timer.events.map
      (·.deadline) = [200, 250, 100, 100, 220].map years := by cbv
  refine ⟨?_, ?_, hafter, hlast⟩
  · rw [sorted_iff, hbefore]
    decide
  · rw [sorted_iff, hafter]
    decide

end SessionDispatch.Timer
