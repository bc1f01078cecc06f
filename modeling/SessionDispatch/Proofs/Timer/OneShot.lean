import Mathlib.Data.List.Induction
import SessionDispatch.Proofs.Run
import SessionDispatch.Proofs.Timer.History

/-!
# One-shot events

A one-shot event is handed out by the first pass that takes place when its time has gone by, if no
call cancelled it before; by no other pass, and else not at all. The event is followed through a
history by its number, which no other event is ever given: as long as it is armed its instant of
falling due stands still, and once it is gone it does not come back.
-/

namespace SessionDispatch.Timer

variable {α : Type}

def Holds (t : Timer α) (id : Nat) (due : Instant) (action : α) : Prop :=
  ∃ e ∈ t.events, e.id = id ∧ e.repeats = false ∧ e.due = due ∧ e.action = action

/-- A number was given out, and nothing is armed under it any more. -/
def Gone (t : Timer α) (id : Nat) : Prop := id < t.nextId ∧ ∀ e ∈ t.events, e.id ≠ id

/-- After these calls an event that was armed right before them for a timeout is still armed: it was
not cancelled, and no pass took place when the timeout had gone by. -/
def StillArmed (id : Nat) (timeout : Span) (calls : List (Call α)) : Prop :=
  .cancel id ∉ calls ∧ ∀ l r, calls = l ++ .pass :: r → elapsed l < timeout

/-- Among these calls is the pass that hands the event out. -/
def HandsOut (id : Nat) (timeout : Span) (calls : List (Call α)) : Prop :=
  ∃ l r, calls = l ++ .pass :: r ∧ StillArmed id timeout l ∧ timeout ≤ elapsed l

theorem Holds.isScheduled {t : Timer α} {id : Nat} {due : Instant} {action : α}
    (h : t.Holds id due action) : t.isScheduled id = true := by
  obtain ⟨e, he, hid, -⟩ := h
  exact isScheduled_iff.mpr ⟨e, he, hid⟩

theorem Gone.not_isScheduled {t : Timer α} {id : Nat} (h : t.Gone id) :
    t.isScheduled id = false := by
  rw [← Bool.not_eq_true, isScheduled_iff]
  rintro ⟨e, he, hid⟩
  exact h.2 e he hid

section Calls

variable {s : Clocked α} {id : Nat} {due : Instant} {action : α}

/-- What the passes of a call hand out under a number. -/
def Answer.dueOf (a : Answer α) (id : Nat) : List α := (a.due.filter (·.id = id)).map (·.action)

theorem holds_schedule (s : Clocked α) (timeout : Span) (action : α) :
    (s.call (.schedule timeout false action)).2.timer.Holds s.timer.nextId (s.now + timeout)
      action :=
  ⟨_, (mem_schedule ..).mpr (.inl rfl), rfl, rfl, rfl, rfl⟩

theorem Gone.call (v : s.timer.Valid s.now) (h : s.timer.Gone id) (c : Call α) :
    (s.call c).2.timer.Gone id ∧ (s.call c).1.dueOf id = [] := by
  cases c with
  | schedule timeout repeats a =>
      refine ⟨⟨Nat.lt_succ_of_lt h.1, ?_⟩, rfl⟩
      intro e he
      rcases (mem_schedule ..).mp he with rfl | he
      · exact Nat.ne_of_gt h.1
      · exact h.2 e he
  | cancel i => exact ⟨⟨h.1, fun e he => h.2 e (v.mem_cancel.mp he).1⟩, rfl⟩
  | pass =>
      refine ⟨⟨h.1, ?_⟩, ?_⟩
      · intro x hx
        obtain ⟨e, he, -, rfl⟩ := v.mem_left.mp hx
        exact Event.advance_id e s.now ▸ h.2 e he
      · have hf : (s.timer.pass s.now).1.filter (·.id = id) = [] := by
          rw [List.filter_eq_nil_iff]
          intro x hx
          obtain ⟨e, he, -, rfl⟩ := v.mem_due.mp hx
          simpa using h.2 e he
        exact congrArg _ hf
  | tick d => exact ⟨h, rfl⟩

/-- A pass hands an armed event out once if it is due, and else not at all. -/
theorem dueOf_pass (v : s.timer.Valid s.now) {e : Event α} (he : e ∈ s.timer.events) :
    (s.call .pass).1.dueOf e.id = if e.due ≤ s.now then [e.action] else [] := by
  have hf : (s.timer.pass s.now).1.filter (·.id = e.id) =
      ([e].filter (·.due ≤ s.now)).map fun x => (x.advance s.now).2 := by
    rw [v.pass_due, List.filter_map]
    simp only [Function.comp_def, Event.advance_id]
    rw [List.filter_comm, v.filter_id he]
  change ((s.timer.pass s.now).1.filter (·.id = e.id)).map (·.action) = _
  rw [hf]
  by_cases h : e.due ≤ s.now <;> simp [h]

theorem dueOf_call_early (v : s.timer.Valid s.now) {e : Event α} (he : e ∈ s.timer.events)
    {c : Call α} (hp : c = .pass → s.now < e.due) : (s.call c).1.dueOf e.id = [] := by
  cases c with
  | schedule timeout repeats a => rfl
  | cancel i => rfl
  | pass => rw [dueOf_pass v he, if_neg (Nat.not_le.mpr (hp rfl))]
  | tick d => rfl

/-- An event is left alone by all calls but its own cancellation and the passes that hand it out. -/
theorem exists_same_of_call (v : s.timer.Valid s.now) {e : Event α} (he : e ∈ s.timer.events)
    {c : Call α} (hc : c ≠ .cancel e.id) (ho : (s.call c).1.dueOf e.id = []) :
    ∃ x ∈ (s.call c).2.timer.events, x.Same e := by
  cases c with
  | schedule timeout repeats a => exact ⟨e, (mem_schedule ..).mpr (.inr he), .refl e⟩
  | cancel i => exact ⟨e, v.mem_cancel.mpr ⟨he, fun hi => hc (by rw [hi])⟩, .refl e⟩
  | pass =>
      have hd : s.now < e.due := by
        apply Nat.lt_of_not_le
        intro hd
        rw [dueOf_pass v he, if_pos hd] at ho
        cases ho
      exact ⟨_, v.mem_left.mpr ⟨e, he, .inr hd, rfl⟩, Event.same_advance (v.checkpoint_le e he) hd⟩
  | tick d => exact ⟨e, he, .refl e⟩

theorem gone_cancel (v : s.timer.Valid s.now) {e : Event α} (he : e ∈ s.timer.events) :
    (s.call (.cancel e.id)).2.timer.Gone e.id :=
  ⟨v.id_lt e he, fun _ hx => (v.mem_cancel.mp hx).2⟩

/-- A one-shot event is gone after the pass that hands it out. -/
theorem gone_pass (v : s.timer.Valid s.now) {e : Event α} (he : e ∈ s.timer.events)
    (hr : e.repeats = false) (hd : e.due ≤ s.now) : (s.call .pass).2.timer.Gone e.id := by
  constructor
  · exact v.id_lt e he
  · intro x hx
    obtain ⟨y, hy, hleft, rfl⟩ := v.mem_left.mp hx
    rw [Event.advance_id]
    intro hid
    rw [v.eq_of_id hy he hid, hr] at hleft
    exact hleft.elim Bool.false_ne_true (Nat.not_lt.mpr hd)

theorem Holds.pass_due (v : s.timer.Valid s.now) (h : s.timer.Holds id due action)
    (hd : due ≤ s.now) :
    (s.call .pass).2.timer.Gone id ∧ (s.call .pass).1.dueOf id = [action] := by
  obtain ⟨e, he, rfl, hr, rfl, rfl⟩ := h
  rw [dueOf_pass v he, if_pos hd]
  exact ⟨gone_pass v he hr hd, rfl⟩

/-- Between its arming and its end an event is left alone by all calls but its own cancellation and
the passes at which it is due. -/
theorem Holds.call (v : s.timer.Valid s.now) (h : s.timer.Holds id due action) {c : Call α}
    (hc : c ≠ .cancel id) (hp : c = .pass → s.now < due) :
    (s.call c).2.timer.Holds id due action ∧ (s.call c).1.dueOf id = [] := by
  obtain ⟨e, he, rfl, hr, rfl, rfl⟩ := h
  have ho := dueOf_call_early v he hp
  obtain ⟨x, hx, hsame⟩ := exists_same_of_call v he hc ho
  exact ⟨⟨x, hx, hsame.id, hsame.repeats.trans hr, hsame.due, hsame.action⟩, ho⟩

theorem Holds.cancelled (v : s.timer.Valid s.now) (h : s.timer.Holds id due action) :
    (s.call (.cancel id)).2.timer.Gone id := by
  obtain ⟨e, he, rfl, -⟩ := h
  exact gone_cancel v he

end Calls

section Runs

variable {id : Nat} {d : Span} {calls : List (Call α)} {c : Call α}

theorem stillArmed_nil : StillArmed id d ([] : List (Call α)) :=
  ⟨by simp, by simp⟩

theorem stillArmed_concat :
    StillArmed id d (calls ++ [c]) ↔
      StillArmed id d calls ∧ c ≠ .cancel id ∧ (c = .pass → elapsed calls < d) := by
  unfold StillArmed
  constructor
  · rintro ⟨hc, hp⟩
    simp only [List.mem_append, List.mem_singleton, not_or] at hc
    refine ⟨⟨hc.1, fun l r h => hp l (r ++ [c]) (by simp [h])⟩, Ne.symm hc.2, ?_⟩
    rintro rfl
    exact hp calls [] rfl
  · rintro ⟨⟨hc, hp⟩, hn, he⟩
    refine ⟨by simpa using ⟨hc, Ne.symm hn⟩, ?_⟩
    intro l r h
    rcases Run.concat_eq_append_cons.mp h with ⟨r', -, h⟩ | ⟨rfl, h, -⟩
    · exact hp l r' h
    · exact he h.symm

theorem handsOut_concat :
    HandsOut id d (calls ++ [c]) ↔
      HandsOut id d calls ∨ (c = .pass ∧ StillArmed id d calls ∧ d ≤ elapsed calls) := by
  unfold HandsOut
  constructor
  · rintro ⟨l, r, h, ha, he⟩
    rcases Run.concat_eq_append_cons.mp h with ⟨r', -, h⟩ | ⟨rfl, rfl, -⟩
    · exact .inl ⟨l, r', h, ha, he⟩
    · exact .inr ⟨rfl, ha, he⟩
  · rintro (⟨l, r, rfl, ha, he⟩ | ⟨rfl, ha, he⟩)
    · exact ⟨l, r ++ [c], by simp, ha, he⟩
    · exact ⟨calls, [], rfl, ha, he⟩

theorem HandsOut.not_stillArmed (h : HandsOut id d calls) : ¬StillArmed id d calls := by
  obtain ⟨l, r, hl, -, he⟩ := h
  intro ha
  exact Nat.not_lt.mpr he (ha.2 l r hl)

def Clocked.handedOutAs (s : Clocked α) (calls : List (Call α)) (id : Nat) : List α :=
  ((s.handedOut calls).filter (·.id = id)).map (·.action)

theorem Clocked.handedOutAs_concat (s : Clocked α) :
    s.handedOutAs (calls ++ [c]) id =
      s.handedOutAs calls id ++ ((s.run calls).call c).1.dueOf id := by
  simp [handedOutAs, handedOut_concat, Answer.dueOf]

/-- The three ways in which a one-shot event can stand after a run: armed, handed out once,
or cancelled. -/
theorem fate {s : Clocked α} {action : α} (v : s.timer.Valid s.now)
    (h : s.timer.Holds id (s.now + d) action) (calls : List (Call α)) :
    (StillArmed id d calls ∧ (s.run calls).timer.Holds id (s.now + d) action ∧
      s.handedOutAs calls id = []) ∨
    (HandsOut id d calls ∧ (s.run calls).timer.Gone id ∧ s.handedOutAs calls id = [action]) ∨
    (¬StillArmed id d calls ∧ ¬HandsOut id d calls ∧ (s.run calls).timer.Gone id ∧
      s.handedOutAs calls id = []) := by
  -- Which of the three it is changes at the end of the run, so the calls are taken from the end.
  induction calls using List.reverseRecOn with
  | nil => exact .inl ⟨stillArmed_nil, h, rfl⟩
  | append_singleton calls c ih =>
      have vr := s.valid_run v calls
      rw [s.run_concat, s.handedOutAs_concat, stillArmed_concat, handsOut_concat]
      rcases ih with ⟨ha, hh, ho⟩ | ⟨ha, hg, ho⟩ | ⟨hn, hd, hg, ho⟩
      · have hdue : s.now + d ≤ (s.run calls).now ↔ d ≤ elapsed calls := by
          rw [Clocked.now_run]
          exact Nat.add_le_add_iff_left
        by_cases hc : c = .cancel id
        · subst hc
          refine .inr (.inr ⟨fun h => h.2.1 rfl, ?_, hh.cancelled vr, by rw [ho]; rfl⟩)
          rintro (h | ⟨h, -⟩)
          · exact h.not_stillArmed ha
          · cases h
        · by_cases hp : c = .pass ∧ d ≤ elapsed calls
          · obtain ⟨rfl, he⟩ := hp
            obtain ⟨hg, ho'⟩ := hh.pass_due vr (hdue.mpr he)
            exact .inr (.inl ⟨.inr ⟨rfl, ha, he⟩, hg, by rw [ho, ho']; rfl⟩)
          · have he : c = .pass → elapsed calls < d := fun h => Nat.not_le.mp fun he => hp ⟨h, he⟩
            obtain ⟨hh', ho'⟩ :=
              hh.call vr hc fun h => Nat.not_le.mp (mt hdue.mp (Nat.not_le.mpr (he h)))
            exact .inl ⟨⟨ha, hc, he⟩, hh', by rw [ho, ho']; rfl⟩
      · obtain ⟨hg', ho'⟩ := hg.call vr c
        exact .inr (.inl ⟨.inl ha, hg', by rw [ho, ho']; rfl⟩)
      · obtain ⟨hg', ho'⟩ := hg.call vr c
        refine .inr (.inr ⟨fun h => hn h.1, ?_, hg', by rw [ho, ho']; rfl⟩)
        rintro (h | ⟨-, h, -⟩)
        · exact hd h
        · exact hn h

section Armed

variable {s : Clocked α} {action : α} (v : s.timer.Valid s.now)
  (h : s.timer.Holds id (s.now + d) action)
include v h

theorem isScheduled_run_iff :
    (s.run calls).timer.isScheduled id = true ↔ StillArmed id d calls := by
  rcases fate v h calls with ⟨ha, hh, -⟩ | ⟨ha, hg, -⟩ | ⟨hn, -, hg, -⟩
  · simp [hh.isScheduled, ha]
  · simp [hg.not_isScheduled, ha.not_stillArmed]
  · simp [hg.not_isScheduled, hn]

theorem handedOutAs_run :
    (HandsOut id d calls → s.handedOutAs calls id = [action]) ∧
      (¬HandsOut id d calls → s.handedOutAs calls id = []) := by
  rcases fate v h calls with ⟨ha, -, ho⟩ | ⟨ha, -, ho⟩ | ⟨-, hn, -, ho⟩
  · exact ⟨fun hd => absurd ha hd.not_stillArmed, fun _ => ho⟩
  · exact ⟨fun _ => ho, fun hn => absurd ha hn⟩
  · exact ⟨fun ha => absurd ha hn, fun _ => ho⟩

/-- The pass that follows a run hands the event out if it finds it armed and its time has
gone by. -/
theorem dueOf_pass_run :
    (StillArmed id d calls ∧ d ≤ elapsed calls → ((s.run calls).call .pass).1.dueOf id = [action]) ∧
      (¬(StillArmed id d calls ∧ d ≤ elapsed calls) →
        ((s.run calls).call .pass).1.dueOf id = []) := by
  have vr := s.valid_run v calls
  have hdue : s.now + d ≤ (s.run calls).now ↔ d ≤ elapsed calls := by
    rw [Clocked.now_run]
    exact Nat.add_le_add_iff_left
  rcases fate v h calls with ⟨ha, hh, -⟩ | ⟨ha, hg, -⟩ | ⟨hn, -, hg, -⟩
  · exact ⟨fun he => (hh.pass_due vr (hdue.mpr he.2)).2,
      fun he =>
        (hh.call vr (c := .pass) nofun fun _ => Nat.not_le.mp fun hn => he ⟨ha, hdue.mp hn⟩).2⟩
  · exact ⟨fun he => absurd he.1 ha.not_stillArmed, fun _ => (hg.call vr _).2⟩
  · exact ⟨fun he => absurd he.1 hn, fun _ => (hg.call vr _).2⟩

end Armed

end Runs

theorem pending_call {s : Clocked α} (v : s.timer.Valid s.now) (c : Call α) :
    (s.call c).2.timer.pending + (s.call c).1.due.countP (!·.repeats) +
        (if (s.call c).1.isFound then 1 else 0) =
      s.timer.pending + (s.call c).1.armed?.toList.length := by
  cases c with
  | schedule timeout repeats action => exact pending_schedule ..
  | cancel id => exact pending_cancel ..
  | pass => exact v.pending_pass
  | tick d => rfl

/-- Armed events are those that were armed, less the one-shot events that were handed out and those
that were found by a cancellation. -/
theorem pending_run {s : Clocked α} (v : s.timer.Valid s.now) (calls : List (Call α)) :
    (s.run calls).timer.pending + (s.handedOut calls).countP (!·.repeats) +
        (s.answers calls).countP (·.isFound) =
      s.timer.pending + ((s.answers calls).filterMap (·.armed?)).length := by
  induction calls generalizing s with
  | nil => rfl
  | cons c calls ih =>
      have hc := pending_call v c
      have hr := ih (Clocked.valid_call v c)
      have hl : (s.run (c :: calls)) = (s.call c).2.run calls := rfl
      have hh : s.handedOut (c :: calls) = (s.call c).1.due ++ (s.call c).2.handedOut calls := rfl
      have ha : (s.answers (c :: calls)).filterMap (·.armed?) =
          (s.call c).1.armed?.toList ++ ((s.call c).2.answers calls).filterMap (·.armed?) := by
        rw [Clocked.answers, List.filterMap_cons]
        cases (s.call c).1.armed? <;> rfl
      rw [hl, hh, ha, Clocked.answers, List.countP_append, List.countP_cons, List.length_append]
      omega

/-- Only events that were armed during a run, or stood at its start, are armed after it. -/
theorem id_of_mem_run {s : Clocked α} (v : s.timer.Valid s.now) (calls : List (Call α))
    {e : Event α} (he : e ∈ (s.run calls).timer.events) :
    s.timer.nextId ≤ e.id ∨ ∃ x ∈ s.timer.events, x.id = e.id := by
  induction calls using List.reverseRecOn generalizing e with
  | nil => exact .inr ⟨e, he, rfl⟩
  | append_singleton calls c ih =>
      have vr := s.valid_run v calls
      rw [s.run_concat] at he
      cases c with
      | schedule timeout repeats action =>
          rcases (mem_schedule ..).mp he with rfl | he
          · exact .inl (s.nextId_le_run calls)
          · exact ih he
      | cancel i => exact ih (vr.mem_cancel.mp he).1
      | pass =>
          obtain ⟨x, hx, -, rfl⟩ := vr.mem_left.mp he
          exact Event.advance_id x _ ▸ ih hx
      | tick d => exact ih he

/-- A one-shot event, armed at any point of any history, is handed out once by the first pass that
takes place when its timeout has gone by and finds it armed, and otherwise never. It counts as armed
until then, unless it was cancelled. A cancellation tells whether it found an armed event and else
changes nothing, numbers are given out in counting order, and the number of armed events follows
from the answers. -/
theorem oneShot_fires_once_on_time (now : Instant) (before after : List (Call α)) (d : Span)
    (a : α) :
    let s := ({ now } : Clocked α).run before
    let id := s.timer.nextId
    let armed := (s.call (.schedule d false a)).2
    let t := armed.run after
    let calls := before ++ .schedule d false a :: after
    let answers := ({ now } : Clocked α).answers calls
    (s.call (.schedule d false a)).1 = .armed id ∧
      (t.timer.isScheduled id = true ↔ StillArmed id d after) ∧
      (StillArmed id d after ∧ d ≤ elapsed after → (t.call .pass).1.dueOf id = [a]) ∧
      (¬(StillArmed id d after ∧ d ≤ elapsed after) → (t.call .pass).1.dueOf id = []) ∧
      (HandsOut id d after → armed.handedOutAs after id = [a]) ∧
      (¬HandsOut id d after → armed.handedOutAs after id = []) ∧
      (∀ i, (t.call (.cancel i)).1 = .cancelled (t.timer.isScheduled i) ∧
        (t.timer.isScheduled i = false → (t.call (.cancel i)).2 = t) ∧
        ∀ j, (t.call (.cancel i)).2.timer.isScheduled j = true ↔
          j ≠ i ∧ t.timer.isScheduled j = true) ∧
      (∃ n, answers.filterMap (·.armed?) = List.range' 1 n ∧
        ∀ i, t.timer.isScheduled i = true → i ∈ List.range' 1 n) ∧
      t.timer.pending + (({ now } : Clocked α).handedOut calls).countP (!·.repeats) +
        answers.countP (·.isFound) = (answers.filterMap (·.armed?)).length := by
  intro s id armed t calls answers
  have v : s.timer.Valid s.now := Clocked.valid_run (valid_new now) before
  have va : armed.timer.Valid armed.now := Clocked.valid_call v _
  have vt : t.timer.Valid t.now := Clocked.valid_run va after
  have hh : armed.timer.Holds id (armed.now + d) a := holds_schedule s d a
  have hrun : ({ now } : Clocked α).run calls = t := Clocked.run_append ..
  refine ⟨rfl, isScheduled_run_iff va hh, (dueOf_pass_run va hh).1, (dueOf_pass_run va hh).2,
    (handedOutAs_run va hh).1, (handedOutAs_run va hh).2, ?_, ?_, ?_⟩
  · intro i
    refine ⟨rfl, fun hi => ?_, fun j => vt.isScheduled_cancel⟩
    change ({ t with timer := (t.timer.cancel i).2 } : Clocked α) = t
    rw [cancel_of_not_scheduled hi]
  · obtain ⟨n, hn, hl⟩ := ({ now } : Clocked α).armed_answers calls
    refine ⟨n, hn, fun i hi => ?_⟩
    obtain ⟨e, he, rfl⟩ := isScheduled_iff.mp hi
    rw [← hrun] at he
    rcases id_of_mem_run (valid_new now) calls he with h | ⟨x, hx, -⟩
    · have := vt.id_lt e (hrun ▸ he)
      rw [← hrun, hl] at this
      exact List.mem_range'_1.mpr ⟨h, this⟩
    · cases hx
  · have hp := pending_run (s := { now }) (valid_new now) calls
    rw [hrun] at hp
    simpa [pending] using hp

/-- Two passes charge three and two units; the second hands the event out, and the third
finds nothing. -/
example : (({ now := 7 } : Clocked Char).run [.schedule 5 false 'a', .tick 3, .pass]).handedOutAs
    [.tick 2, .pass, .pass, .cancel 1] 1 = ['a'] := by cbv

end SessionDispatch.Timer
