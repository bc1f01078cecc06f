import Mathlib.Data.List.Infix
import SessionDispatch.Proofs.Timer.OneShot

/-!
# The order in which events are handed out

A new event is put into the list by its deadline, and a pass sorts the list by what remains of the
events. As long as the clock can show all deadlines, both follow one order: by the instants of
falling due, and for one-shot events that fall due at once, by their numbers. The sort is stable and
brings all events to one instant, so it keeps this order even between events whose remaining times
were equal. Over several passes, an event waits for no event that is due after it.
-/

namespace SessionDispatch.Timer

variable {α : Type}

/-! ## The order of the list -/

/-- A stable sort keeps an order between elements of equal keys. -/
theorem pairwise_mergeSort_stable {β : Type} (key : β → Nat) {R : β → β → Prop} {l : List β}
    (hl : l.Pairwise R) :
    (l.mergeSort fun a b => key a ≤ key b).Pairwise fun a b => key a < key b ∨ key a = key b ∧
    R a b := by
  have htrans : ∀ a b c : β, decide (key a ≤ key b) → decide (key b ≤ key c) →
      decide (key a ≤ key c) := by
    simp only [decide_eq_true_eq]
    omega
  have htotal : ∀ a b : β, decide (key a ≤ key b) || decide (key b ≤ key a) := by
    simp only [Bool.or_eq_true, decide_eq_true_eq]
    omega
  induction l with
  | nil => simp
  | cons a l ih =>
      -- The sort puts the head of the list behind the smaller elements of the sorted tail, and
      -- before all others.
      obtain ⟨ha, hl⟩ := List.pairwise_cons.mp hl
      obtain ⟨before, behind, hsort, htail, hbefore⟩ := List.mergeSort_cons htrans htotal a l
      have hsorted := List.pairwise_mergeSort htrans htotal (a :: l)
      have ih := ih hl
      rw [htail] at ih
      rw [hsort] at hsorted ⊢
      obtain ⟨hfront, hback, hcross⟩ := List.pairwise_append.mp ih
      apply List.pairwise_append.mpr
      refine ⟨hfront, List.pairwise_cons.mpr ⟨?_, hback⟩, ?_⟩
      · intro b hb
        have hle := (List.pairwise_cons.mp (List.pairwise_append.mp hsorted).2.1).1 b hb
        have hR : R a b :=
          ha b ((List.mergeSort_perm l _).mem_iff.mp (htail ▸ List.mem_append_right before hb))
        rw [decide_eq_true_eq] at hle
        exact (Nat.lt_or_eq_of_le hle).imp_right fun h => ⟨h, hR⟩
      · intro b hb c hc
        cases List.mem_cons.mp hc with
        | inl hc =>
            have hlt := hbefore b hb
            simp only [Bool.not_eq_true', decide_eq_false_iff_not] at hlt
            exact .inl (hc ▸ Nat.lt_of_not_le hlt)
        | inr hc => exact hcross b hb c hc

/-- The one event is due before the other, or both are due at once and the one-shot event with the
lower number is first. -/
def Event.Before (x y : Event α) : Prop :=
  x.due < y.due ∨ x.due = y.due ∧ (x.repeats = false → y.repeats = false → x.id < y.id)

/-- The events stand in the order in which they are to be handed out. -/
def InTurn (events : List (Event α)) : Prop := events.Pairwise Event.Before

theorem Event.Before.due_le {x y : Event α} (h : x.Before y) : x.due ≤ y.due := by
  cases h with
  | inl h => exact Nat.le_of_lt h
  | inr h => exact Nat.le_of_eq h.1

theorem InTurn.insert {events : List (Event α)} {e : Event α} (h : InTurn events)
    (hclock : ∀ x ∈ events, x.due ≤ Instant.latest) (he : e.due ≤ Instant.latest)
    (hid : ∀ x ∈ events, x.id < e.id) :
    InTurn (insert events e) := by
  have hdue : ∀ x ∈ events, x.deadline = x.due := fun x hx => Event.deadline_eq_due (hclock x hx)
  apply pairwise_insert
  · apply h.imp_of_mem
    intro x y hx hy hxy
    rw [hdue x hx, hdue y hy]
    exact ⟨hxy.due_le, hxy⟩
  · intro x hx hle
    rw [hdue x hx, Event.deadline_eq_due he] at hle
    exact (Nat.lt_or_eq_of_le hle).imp_right fun heq => ⟨heq, fun _ _ => hid x hx⟩
  · intro x hx hlt
    rw [hdue x hx, Event.deadline_eq_due he] at hlt
    exact .inl hlt

/-- One-shot events that a pass leaves with as much time as each other were due at once before
it, too. -/
theorem Event.Before.id_lt {x y : Event α} {now : Instant} (h : x.Before y)
    (hx : x.checkpoint ≤ now) (hy : y.checkpoint ≤ now) (hxl : x.repeats = true ∨ now < x.due)
    (hyl : y.repeats = true ∨ now < y.due)
    (hr : (x.advance now).2.remaining = (y.advance now).2.remaining) (hxo : x.repeats = false)
    (hyo : y.repeats = false) : x.id < y.id := by
  have hxd := hxl.resolve_left (by simp [hxo])
  have hyd := hyl.resolve_left (by simp [hyo])
  rw [Event.advance_of_early hx hxd, Event.advance_of_early hy hyd] at hr
  cases h with
  | inl h =>
      unfold Event.due at *
      dsimp only at hr
      lia
  | inr h => exact h.2 hxo hyo

theorem InTurn.pass {t : Timer α} {now : Instant} (v : t.Valid now) (h : InTurn t.events) :
    InTurn (t.pass now).2.events := by
  have hleft : ((t.events.map fun e => (e.advance now).2).filter (!·.isSpent)).Pairwise
      fun x y => x.remaining = y.remaining → x.repeats = false → y.repeats = false →
        x.id < y.id := by
    rw [List.filter_map]
    apply List.pairwise_map.mpr
    apply (h.filter _).imp_of_mem
    intro x y hx hy hxy hr hxo hyo
    simp only [List.mem_filter, Function.comp_apply, Bool.not_eq_true'] at hx hy
    rw [Event.isSpent_advance_eq_false_iff (v.checkpoint_le x hx.1) (v.unspent x hx.1)] at hx
    rw [Event.isSpent_advance_eq_false_iff (v.checkpoint_le y hy.1) (v.unspent y hy.1)] at hy
    rw [Event.advance_repeats] at hxo hyo
    rw [Event.advance_id, Event.advance_id]
    exact hxy.id_lt (v.checkpoint_le x hx.1) (v.checkpoint_le y hy.1) hx.2 hy.2 hr hxo hyo
  have hsort := pairwise_mergeSort_stable Event.remaining hleft
  have hevents : (t.pass now).2.events =
      ((t.events.map fun e => (e.advance now).2).filter (!·.isSpent)).mergeSort
      fun a b => a.remaining ≤ b.remaining := by
    simp [Timer.pass, Function.comp_def]
  unfold InTurn
  rw [hevents]
  apply hsort.imp_of_mem
  intro x y hx hy hxy
  have hxc : x.checkpoint = now := checkpoint_pass (hevents ▸ hx)
  have hyc : y.checkpoint = now := checkpoint_pass (hevents ▸ hy)
  unfold Event.Before Event.due
  rw [hxc, hyc]
  cases hxy with
  | inl h => exact .inl (Nat.add_lt_add_left h now)
  | inr h => exact .inr ⟨congrArg (now + ·) h.1, h.2 h.1⟩

/-! ## When the events are due, told from the history -/

/-- What an event waits for: that a timeout has gone by since an instant. -/
structure Term where
  since : Instant
  timeout : Span
deriving DecidableEq, Repr

def Term.due (w : Term) : Instant := w.since + w.timeout

namespace Clocked

/-- What the events wait for after one more call. The timeout of an event runs from its arming, and
anew from each pass that hands it out. -/
def reckon (s : Clocked α) (terms : Nat → Term) : Call α → Nat → Term
  | .schedule timeout repeats _ =>
    Function.update terms s.timer.nextId ⟨s.now, if repeats then max timeout minPeriod else timeout⟩
  | .pass => fun id =>
    if (s.call .pass).1.due.any (·.id = id) then { terms id with since := s.now } else terms id
  | .cancel _ | .tick _ => terms

/-- What the events that are armed by a run wait for after it, by their numbers. -/
def terms (s : Clocked α) (calls : List (Call α)) : Nat → Term :=
  (calls.foldl (fun r c => ((r.1.call c).2, r.1.reckon r.2 c)) (s, fun _ => ⟨s.now, 0⟩)).2

theorem terms_concat (s : Clocked α) (calls : List (Call α)) (c : Call α) :
    s.terms (calls ++ [c]) = (s.run calls).reckon (s.terms calls) c := by
  have hfst : ∀ (calls : List (Call α)) (r : Clocked α × (Nat → Term)),
      (calls.foldl (fun r c => ((r.1.call c).2, r.1.reckon r.2 c)) r).1 = r.1.run calls := by
    intro calls
    induction calls with
    | nil => exact fun _ => rfl
    | cons c calls ih => exact fun r => ih _
  unfold terms
  rw [List.foldl_concat, hfst]

/-- All deadlines that come up in a run are instants that the clock can show. -/
def WithinClock (s : Clocked α) (calls : List (Call α)) : Prop :=
  ∀ l ∈ calls.inits, ∀ e ∈ (s.run l).timer.events, (s.terms l e.id).due ≤ Instant.latest

end Clocked

/-- The armed events are due when the history says so. -/
def Reckoned (t : Timer α) (terms : Nat → Term) : Prop :=
  ∀ e ∈ t.events, (terms e.id).due = e.due ∧ (terms e.id).timeout = e.timeout

section Calls

variable {s : Clocked α} {terms : Nat → Term}

theorem any_handedOut (v : s.timer.Valid s.now) {e : Event α} (he : e ∈ s.timer.events) :
    (s.call .pass).1.due.any (·.id = e.id) = decide (e.due ≤ s.now) := by
  rw [Bool.eq_iff_iff, List.any_eq_true, decide_eq_true_eq]
  constructor
  · intro h
    obtain ⟨x, hx, hid⟩ := h
    obtain ⟨y, hy, hdue, rfl⟩ := v.mem_due.mp hx
    rw [decide_eq_true_eq, Event.advance_id] at hid
    exact v.eq_of_id hy he hid ▸ hdue
  · intro h
    exact ⟨(e.advance s.now).2, v.mem_due.mpr ⟨e, he, h, rfl⟩, by simp⟩

theorem Reckoned.call (v : s.timer.Valid s.now) (h : Reckoned s.timer terms) (c : Call α) :
    Reckoned (s.call c).2.timer (s.reckon terms c) := by
  cases c with
  | schedule timeout repeats action =>
      intro e he
      cases (mem_schedule ..).mp he with
      | inl he =>
          subst he
          simp [Clocked.reckon, Event.arm, Event.due, Term.due]
      | inr he =>
          have hne : e.id ≠ s.timer.nextId := Nat.ne_of_lt (v.id_lt e he)
          rw [Clocked.reckon, Function.update_of_ne hne]
          exact h e he
  | cancel id => exact fun e he => h e (v.mem_cancel.mp he).1
  | pass =>
      intro x hx
      obtain ⟨e, he, hleft, rfl⟩ := v.mem_left.mp hx
      have hc := v.checkpoint_le e he
      rw [Event.advance_id, Event.advance_timeout, Clocked.reckon]
      dsimp only
      rw [any_handedOut v he]
      by_cases hd : e.due ≤ s.now
      · have hr : e.repeats = true := hleft.resolve_right (Nat.not_lt.mpr hd)
        rw [if_pos (decide_eq_true hd), Event.advance_of_due hc hd]
        simp [Term.due, Event.due, hr, (h e he).2]
      · rw [if_neg (by simpa using hd), Event.due_advance hc (Nat.lt_of_not_le hd)]
        exact h e he
  | tick d => exact h

end Calls

section Runs

variable {s : Clocked α} {calls : List (Call α)}

theorem reckoned_run (v : s.timer.Valid s.now) (h : s.timer.events = []) (calls : List (Call α)) :
    Reckoned (s.run calls).timer (s.terms calls) := by
  induction calls using List.reverseRecOn with
  | nil =>
      intro e he
      rw [Clocked.run, List.foldl_nil, h] at he
      cases he
  | append_singleton calls c ih =>
      rw [s.run_concat, s.terms_concat]
      exact ih.call (s.valid_run v calls) c

theorem Clocked.WithinClock.of_concat {c : Call α} (h : s.WithinClock (calls ++ [c])) :
    s.WithinClock calls := by
  intro l hl
  apply h l
  rw [List.mem_inits] at hl ⊢
  exact hl.trans (List.prefix_append calls [c])

theorem Clocked.WithinClock.due_le (h : s.WithinClock calls) (v : s.timer.Valid s.now)
    (hn : s.timer.events = []) {e : Event α} (he : e ∈ (s.run calls).timer.events) :
    e.due ≤ Instant.latest := by
  rw [← (reckoned_run v hn calls e he).1]
  exact h calls (List.mem_inits _ _ |>.mpr List.prefix_rfl) e he

theorem inTurn_run (v : s.timer.Valid s.now) (hn : s.timer.events = []) (hw : s.WithinClock calls) :
    InTurn (s.run calls).timer.events := by
  induction calls using List.reverseRecOn with
  | nil =>
      rw [Clocked.run, List.foldl_nil, hn]
      exact List.Pairwise.nil
  | append_singleton calls c ih =>
      have vr := s.valid_run v calls
      have ih := ih hw.of_concat
      have hclock : ∀ e ∈ ((s.run calls).call c).2.timer.events, e.due ≤ Instant.latest := by
        rw [← s.run_concat]
        exact fun e he => hw.due_le v hn he
      rw [s.run_concat]
      cases c with
      | schedule timeout repeats action =>
          apply InTurn.insert ih
          · exact fun e he => hw.of_concat.due_le v hn he
          · exact hclock _ ((mem_schedule ..).mpr (.inl rfl))
          · exact vr.id_lt
      | cancel id => exact List.Pairwise.sublist List.eraseP_sublist ih
      | pass => exact ih.pass vr
      | tick d => exact ih

/-- Until it is cancelled or handed out, an event that was armed at the start of a run stays as
it is. -/
theorem exists_same_of_run (v : s.timer.Valid s.now) {e : Event α} (he : e ∈ s.timer.events)
    (calls : List (Call α)) :
    .cancel e.id ∈ calls ∨ s.handedOutAs calls e.id ≠ [] ∨ ∃ x ∈ (s.run calls).timer.events,
      x.Same e := by
  induction calls using List.reverseRecOn with
  | nil => exact .inr (.inr ⟨e, he, .refl e⟩)
  | append_singleton calls c ih =>
      rw [s.run_concat, s.handedOutAs_concat, List.mem_append, List.mem_singleton]
      cases ih with
      | inl h => exact .inl (.inl h)
      | inr ih =>
          cases ih with
          | inl h => exact .inr (.inl (List.append_ne_nil_of_left_ne_nil h _))
          | inr h =>
              obtain ⟨x, hx, hxe⟩ := h
              by_cases hc : c = .cancel e.id
              · exact .inl (.inr hc.symm)
              · by_cases ho : ((s.run calls).call c).1.dueOf e.id = []
                · rw [← hxe.id] at hc ho
                  obtain ⟨y, hy, hyx⟩ := exists_same_of_call (s.valid_run v calls) hx hc ho
                  exact .inr (.inr ⟨y, hy, hyx.trans hxe⟩)
                · exact .inr (.inl (List.append_ne_nil_of_right_ne_nil _ ho))

/-- A one-shot event stays as it is or is gone. -/
theorem exists_same_or_gone (v : s.timer.Valid s.now) {e : Event α} (he : e ∈ s.timer.events)
    (hr : e.repeats = false) (calls : List (Call α)) :
    (∃ x ∈ (s.run calls).timer.events, x.Same e) ∨ (s.run calls).timer.Gone e.id := by
  induction calls using List.reverseRecOn with
  | nil => exact .inl ⟨e, he, .refl e⟩
  | append_singleton calls c ih =>
      have vr := s.valid_run v calls
      rw [s.run_concat]
      cases ih with
      | inr h => exact .inr (h.call vr c).1
      | inl h =>
          obtain ⟨x, hx, hxe⟩ := h
          rw [← hxe.id]
          by_cases hc : c = .cancel x.id
          · exact .inr (hc ▸ gone_cancel vr hx)
          · by_cases hp : c = .pass ∧ x.due ≤ (s.run calls).now
            · exact .inr (hp.1 ▸ gone_pass vr hx (hxe.repeats.trans hr) hp.2)
            · have ho : ((s.run calls).call c).1.dueOf x.id = [] := by
                apply dueOf_call_early vr hx
                exact fun hpass => Nat.lt_of_not_le fun hd => hp ⟨hpass, hd⟩
              obtain ⟨y, hy, hyx⟩ := exists_same_of_call vr hx hc ho
              exact .inl ⟨y, hy, hyx.trans hxe⟩

/-- A pass that hands out a one-shot event finds no event that was armed beside it, is due no later,
and was neither handed out before nor cancelled, without handing it out too. -/
theorem handedOut_of_due_le (v : s.timer.Valid s.now) {x y : Event α} (hx : x ∈ s.timer.events)
    (hy : y ∈ s.timer.events) (ho : y.repeats = false) (hle : x.due ≤ y.due)
    (hout : ((s.run calls).call .pass).1.dueOf y.id ≠ []) :
    .cancel x.id ∈ calls ∨ s.handedOutAs (calls ++ [.pass]) x.id ≠ [] := by
  have vr := s.valid_run v calls
  have hdue : y.due ≤ (s.run calls).now := by
    cases exists_same_or_gone v hy ho calls with
    | inl h =>
        obtain ⟨z, hz, hzy⟩ := h
        by_contra hd
        rw [← hzy.id, dueOf_pass vr hz, if_neg (hzy.due ▸ hd)] at hout
        exact hout rfl
    | inr h => exact absurd (h.call vr .pass).2 hout
  rw [s.handedOutAs_concat]
  cases exists_same_of_run v hx calls with
  | inl h => exact .inl h
  | inr h =>
      right
      cases h with
      | inl h => exact List.append_ne_nil_of_left_ne_nil h _
      | inr h =>
          obtain ⟨e, he, hex⟩ := h
          apply List.append_ne_nil_of_right_ne_nil
          rw [← hex.id, dueOf_pass vr he, if_pos (hex.due ▸ Nat.le_trans hle hdue)]
          exact List.cons_ne_nil _ _

end Runs

/-- As long as the clock can show all deadlines, each pass hands events out in the order in which
they are due, told from when each was armed or last handed out, and one-shot events that are due at
once in the order of their numbers, which are given out in counting order. Over several passes, an
event that is due no later than a one-shot event beside it is handed out by the same pass at the
latest, unless it is cancelled. -/
theorem handed_out_in_due_order (now : Instant) (calls : List (Call α))
    (hw : ({ now } : Clocked α).WithinClock calls) :
    let s := ({ now } : Clocked α).run calls
    let due := fun id => (({ now } : Clocked α).terms calls id).due
    ((s.call .pass).1.due.Pairwise fun x y =>
        due x.id < due y.id ∨ due x.id = due y.id ∧
          (x.repeats = false → y.repeats = false → x.id < y.id)) ∧
      (∃ n, (({ now } : Clocked α).answers calls).filterMap (·.armed?) = List.range' 1 n) ∧
      ∀ x ∈ s.timer.events, ∀ y ∈ s.timer.events, y.repeats = false → due x.id ≤ due y.id →
        ∀ after, ((s.run after).call .pass).1.dueOf y.id ≠ [] →
          .cancel x.id ∈ after ∨ s.handedOutAs (after ++ [.pass]) x.id ≠ [] := by
  intro s due
  have v : s.timer.Valid s.now := Clocked.valid_run (valid_new now) calls
  have hturn : InTurn s.timer.events := inTurn_run (valid_new now) rfl hw
  have hreckoned : Reckoned s.timer (({ now } : Clocked α).terms calls) :=
    reckoned_run (valid_new now) rfl calls
  have hdue : ∀ e ∈ s.timer.events, due e.id = e.due := fun e he => (hreckoned e he).1
  refine ⟨?_, ?_, ?_⟩
  · change (s.timer.pass s.now).1.Pairwise _
    rw [v.pass_due]
    apply List.pairwise_map.mpr
    apply (List.Pairwise.filter _ hturn).imp_of_mem
    intro x y hx hy hxy
    simp only [Event.advance_id, Event.advance_repeats, hdue x (List.mem_filter.mp hx).1,
      hdue y (List.mem_filter.mp hy).1]
    exact hxy
  · obtain ⟨n, hn, -⟩ := ({ now } : Clocked α).armed_answers calls
    exact ⟨n, hn⟩
  · intro x hx y hy ho hle after hout
    rw [hdue x hx, hdue y hy] at hle
    exact handedOut_of_due_le v hx hy ho hle hout

/-- An event that repeats is armed anew between two that are due at once. -/
def tied : List (Call Char) :=
  [.schedule 5000000 false 'a', .schedule 1000000 true 'r', .tick 2000000, .pass,
    .schedule 3000000 false 'b', .tick 3000000]

theorem handed_out_in_due_order_tied :
    let new : Clocked Char := { now := 0 }
    let handed := ((new.run tied).call .pass).1.due
    let due := fun id => (new.terms tied id).due
    new.WithinClock tied ∧ handed.map (·.id) = [2, 1, 3] ∧
      [2, 1, 3].map due = [3000000, 5000000, 5000000] ∧
      handed.Pairwise fun x y =>
        due x.id < due y.id ∨ due x.id = due y.id ∧
          (x.repeats = false → y.repeats = false → x.id < y.id) := by
  intro new handed due
  have hall :
      (tied.inits.all fun l => (({ now := 0 } : Clocked Char).run l).timer.events.all fun e =>
        (({ now := 0 } : Clocked Char).terms l e.id).due ≤ Instant.latest) = true := by cbv
  have hw : new.WithinClock tied := by
    intro l hl e he
    exact of_decide_eq_true (List.all_eq_true.mp (List.all_eq_true.mp hall l hl) e he)
  have hids :
      ((({ now := 0 } : Clocked Char).run tied).call .pass).1.due.map (·.id) = [2, 1, 3] := by cbv
  have hdue : [2, 1, 3].map (fun id => (({ now := 0 } : Clocked Char).terms tied id).due) =
      [3000000, 5000000, 5000000] := by cbv
  exact ⟨hw, hids, hdue, (handed_out_in_due_order 0 tied hw).1⟩

end SessionDispatch.Timer
