import SessionDispatch.Proofs.Timer.OneShot

/-!
# Repeating events

A repeating event is handed out by a pass just if its period has gone by since the last pass that
handed it out, or since its arming. A pass that comes late hands it out once all the same, and the
next period begins with that pass. The event is followed through a history by its number, as a
one-shot event is, but the instant from which its period runs goes on with every pass that hands it
out. Only its cancellation ends it.
-/

namespace SessionDispatch.Timer

variable {α : Type}

/-- A repeating event that was handed out so many times, and whose period runs since an instant. -/
structure Event.Recurs (e : Event α) (id : Nat) (period : Span) (since : Instant) (times : Nat)
    (action : α) :
    Prop where
  id : e.id = id
  repeats : e.repeats = true
  timeout : e.timeout = period
  due : e.due = since + period
  fired : e.fired = min times (UInt32.size - 1)
  action : e.action = action

def Recurs (t : Timer α) (id : Nat) (period : Span) (since : Instant) (times : Nat) (action : α) :
    Prop :=
  ∃ e ∈ t.events, e.Recurs id period since times action

section Calls

variable {s : Clocked α} {id times : Nat} {period : Span} {since : Instant} {action : α}

theorem Recurs.isScheduled {t : Timer α} (h : t.Recurs id period since times action) :
    t.isScheduled id = true := by
  obtain ⟨e, he, hr⟩ := h
  exact isScheduled_iff.mpr ⟨e, he, hr.id⟩

theorem Recurs.firedCount? {t : Timer α} {now : Instant} (v : t.Valid now)
    (h : t.Recurs id period since times action) :
    t.firedCount? id = some (min times (UInt32.size - 1)) := by
  obtain ⟨e, he, hr⟩ := h
  rw [← hr.id, v.firedCount? he, hr.fired]

theorem Recurs.dueOf_pass (v : s.timer.Valid s.now)
    (h : s.timer.Recurs id period since times action) :
    (s.call .pass).1.dueOf id = if since + period ≤ s.now then [action] else [] := by
  obtain ⟨e, he, hr⟩ := h
  rw [← hr.id, Timer.dueOf_pass v he, hr.due, hr.action]

theorem Recurs.cancelled (v : s.timer.Valid s.now)
    (h : s.timer.Recurs id period since times action) :
    (s.call (.cancel id)).2.timer.Gone id := by
  obtain ⟨e, he, hr⟩ := h
  exact hr.id ▸ gone_cancel v he

theorem recurs_schedule (s : Clocked α) (timeout : Span) (action : α) :
    (s.call (.schedule timeout true action)).2.timer.Recurs s.timer.nextId
    (max timeout minPeriod) s.now 0
      action := by
  refine ⟨_, (mem_schedule ..).mpr (.inl rfl), ?_⟩
  constructor <;> rfl

theorem Event.Recurs.of_same {e x : Event α} (h : e.Recurs id period since times action)
    (hx : x.Same e) :
    x.Recurs id period since times action where
  id := hx.id.trans h.id
  repeats := hx.repeats.trans h.repeats
  timeout := hx.timeout.trans h.timeout
  due := hx.due.trans h.due
  fired := hx.fired.trans h.fired
  action := hx.action.trans h.action

/-- The pass that hands the event out begins its next period. -/
theorem Recurs.pass_due (v : s.timer.Valid s.now) (h : s.timer.Recurs id period since times action)
    (hd : since + period ≤ s.now) :
    (s.call .pass).2.timer.Recurs id period s.now (times + 1) action := by
  obtain ⟨e, he, hr⟩ := h
  have hc := v.checkpoint_le e he
  have hdue : e.due ≤ s.now := hr.due ▸ hd
  refine ⟨(e.advance s.now).2, v.mem_left.mpr ⟨e, he, .inl hr.repeats, rfl⟩, ?_⟩
  constructor
  · rw [Event.advance_id, hr.id]
  · rw [Event.advance_repeats, hr.repeats]
  · rw [Event.advance_timeout, hr.timeout]
  · rw [Event.advance_of_due hc hdue, hr.repeats, ← hr.timeout]
    rfl
  · rw [Event.advance_of_due hc hdue, hr.fired]
    dsimp only
    omega
  · rw [Event.advance_action, hr.action]

/-- A call that does not cancel the event leaves its period running, or hands it out at the end of
the period and lets the next one begin. -/
theorem Recurs.call (v : s.timer.Valid s.now) (h : s.timer.Recurs id period since times action)
    {c : Call α} (hc : c ≠ .cancel id) :
    ((s.call c).1.dueOf id = [] ∧ (s.call c).2.timer.Recurs id period since times action) ∨
      ((s.call c).1.dueOf id = [action] ∧ since + period ≤ s.now ∧
        (s.call c).2.timer.Recurs id period s.now (times + 1) action) := by
  by_cases hp : c = .pass ∧ since + period ≤ s.now
  · obtain ⟨rfl, hd⟩ := hp
    rw [h.dueOf_pass v, if_pos hd]
    exact .inr ⟨rfl, hd, h.pass_due v hd⟩
  · obtain ⟨e, he, hr⟩ := h
    have ho : (s.call c).1.dueOf e.id = [] := by
      apply dueOf_call_early v he
      intro hpass
      rw [hr.due]
      exact Nat.lt_of_not_le fun hd => hp ⟨hpass, hd⟩
    obtain ⟨x, hx, hsame⟩ := exists_same_of_call v he (hr.id ▸ hc) ho
    exact .inl ⟨hr.id ▸ ho, x, hx, hr.of_same hsame⟩

end Calls

section Runs

variable {s : Clocked α} {id : Nat} {period : Span} {calls : List (Call α)} {action : α}

/-- When the passes of a run hand an event out, one instant for each time. -/
def Clocked.beats (s : Clocked α) (id : Nat) : List (Call α) → List Instant
  | [] => []
  | c :: calls => ((s.call c).1.dueOf id).map (fun _ => s.now) ++ (s.call c).2.beats id calls

theorem Clocked.beats_concat (s : Clocked α) (id : Nat) (calls : List (Call α)) (c : Call α) :
    s.beats id (calls ++ [c]) =
      s.beats id calls ++ (((s.run calls).call c).1.dueOf id).map fun _ => (s.run calls).now := by
  induction calls generalizing s with
  | nil => simp [beats, run]
  | cons b calls ih =>
      simp only [List.cons_append, beats, ih, List.append_assoc, run, List.foldl_cons]

/-- The instant since which the period of an event runs: the last at which it was handed out, or
that of its arming. -/
def lastBeat (armed : Instant) (beats : List Instant) : Instant := beats.getLast?.getD armed

theorem lastBeat_concat (armed : Instant) (beats : List Instant) (now : Instant) :
    lastBeat armed (beats ++ [now]) = now := by
  simp [lastBeat]

/-- No two of these instants, in a row, are nearer than a period. -/
def Spaced (period : Span) (instants : List Instant) : Prop :=
  instants.IsChain fun p q => p + period ≤ q

theorem Spaced.concat {armed now : Instant} {beats : List Instant}
    (h : Spaced period (armed :: beats)) (hl : lastBeat armed beats + period ≤ now) :
    Spaced period (armed :: (beats ++ [now])) := by
  rw [← List.cons_append]
  apply List.isChain_append.mpr
  refine ⟨h, List.isChain_singleton now, ?_⟩
  rw [List.getLast?_cons]
  simpa [lastBeat] using hl

theorem Gone.handedOutAs (v : s.timer.Valid s.now) (h : s.timer.Gone id) (calls : List (Call α)) :
    s.handedOutAs calls id = [] := by
  have hrun : (s.run calls).timer.Gone id ∧ s.handedOutAs calls id = [] := by
    induction calls using List.reverseRecOn with
    | nil => exact ⟨h, rfl⟩
    | append_singleton calls c ih =>
        have hc := ih.1.call (s.valid_run v calls) c
        rw [s.run_concat, s.handedOutAs_concat, ih.2, hc.2]
        exact ⟨hc.1, rfl⟩
  exact hrun.2

/-- A repeating event goes on until it is cancelled, one period after the other. -/
theorem recurs_run {since : Instant} (v : s.timer.Valid s.now)
    (h : s.timer.Recurs id period since 0 action) (calls : List (Call α)) :
    Spaced period (since :: s.beats id calls) ∧
      ((.cancel id ∉ calls ∧
        (s.run calls).timer.Recurs id period (lastBeat since (s.beats id calls))
          (s.beats id calls).length action) ∨
        (.cancel id ∈ calls ∧ (s.run calls).timer.Gone id)) := by
  induction calls using List.reverseRecOn with
  | nil => exact ⟨List.isChain_singleton since, .inl ⟨List.not_mem_nil, h⟩⟩
  | append_singleton calls c ih =>
      have vr := s.valid_run v calls
      obtain ⟨hs, ih⟩ := ih
      rw [s.run_concat, s.beats_concat, List.mem_append, List.mem_singleton]
      cases ih with
      | inr ih =>
          have hg := ih.2.call vr c
          rw [hg.2, List.map_nil, List.append_nil]
          exact ⟨hs, .inr ⟨.inl ih.1, hg.1⟩⟩
      | inl ih =>
          by_cases hc : c = .cancel id
          · subst hc
            have hnone : ((s.run calls).call (.cancel id)).1.dueOf id = [] := rfl
            rw [hnone, List.map_nil, List.append_nil]
            exact ⟨hs, .inr ⟨.inr rfl, ih.2.cancelled vr⟩⟩
          · have hnot : ¬(.cancel id ∈ calls ∨ .cancel id = c) := by
              rw [not_or]
              exact ⟨ih.1, Ne.symm hc⟩
            cases ih.2.call vr hc with
            | inl hq =>
                rw [hq.1, List.map_nil, List.append_nil]
                exact ⟨hs, .inl ⟨hnot, hq.2⟩⟩
            | inr hb =>
                rw [hb.1, List.map_singleton, lastBeat_concat, List.length_append]
                exact ⟨hs.concat hb.2.1, .inl ⟨hnot, hb.2.2⟩⟩

end Runs

/-- A repeating event, armed at any point of any history, is armed until it is cancelled. As long as
it is, a pass hands it out just if its period, of a millisecond at least, has gone by since the last
pass that did, or since the arming, and then once. So the passes that hand it out are a period
apart, and it is counted how many they are, up to what 32 bits can hold. A cancellation tells
whether the event was still armed, and no pass after it hands the event out. -/
theorem repeating_fires_each_period (now : Instant) (before after : List (Call α)) (d : Span)
    (a : α) :
    let s := ({ now } : Clocked α).run before
    let id := s.timer.nextId
    let armed := (s.call (.schedule d true a)).2
    let t := armed.run after
    let period := max d (Span.ofMillis 1)
    let beats := armed.beats id after
    (s.call (.schedule d true a)).1 = .armed id ∧
      (t.timer.isScheduled id = true ↔ .cancel id ∉ after) ∧
      (.cancel id ∉ after → (t.call .pass).1.dueOf id =
        if period ≤ t.now - lastBeat s.now beats then [a] else []) ∧
      (.cancel id ∈ after → (t.call .pass).1.dueOf id = []) ∧
      Spaced period (s.now :: beats) ∧
      (.cancel id ∉ after → t.timer.firedCount? id = some (min beats.length (2 ^ 32 - 1))) ∧
      ((t.call (.cancel id)).1 = .cancelled true ↔ .cancel id ∉ after) ∧
      ∀ later, (t.call (.cancel id)).2.handedOutAs later id = [] := by
  intro s id armed t period beats
  have v : s.timer.Valid s.now := Clocked.valid_run (valid_new now) before
  have va : armed.timer.Valid armed.now := Clocked.valid_call v _
  have vt : t.timer.Valid t.now := Clocked.valid_run va after
  have hr : armed.timer.Recurs id period s.now 0 a := recurs_schedule s d a
  have hperiod : 0 < period := Nat.lt_of_lt_of_le (by decide) (Nat.le_max_right d (Span.ofMillis 1))
  have hspaced : Spaced period (s.now :: beats) := (recurs_run va hr after).1
  have hcourse :
      (.cancel id ∉ after ∧ t.timer.Recurs id period (lastBeat s.now beats) beats.length a) ∨
      (.cancel id ∈ after ∧ t.timer.Gone id) := (recurs_run va hr after).2
  have hlater : (t.call (.cancel id)).2.timer.Gone id := by
    cases hcourse with
    | inl h => exact h.2.cancelled vt
    | inr h => exact (h.2.call vt _).1
  have hcancel : (t.call (.cancel id)).1 = .cancelled true ↔ t.timer.isScheduled id = true := by
    change Answer.cancelled (t.timer.isScheduled id) = .cancelled true ↔ _
    rw [Answer.cancelled.injEq]
  have hscheduled : t.timer.isScheduled id = true ↔ .cancel id ∉ after := by
    cases hcourse with
    | inl h => simp [h.2.isScheduled, h.1]
    | inr h => simp [h.2.not_isScheduled, h.1]
  refine ⟨rfl, hscheduled, ?_, ?_, hspaced, ?_, hcancel.trans hscheduled, ?_⟩
  · intro hn
    have h := (hcourse.resolve_right fun h => hn h.1).2
    have hle : lastBeat s.now beats + period ≤ t.now ↔ period ≤ t.now - lastBeat s.now beats := by
      lia
    rw [h.dueOf_pass vt]
    simp only [hle]
  · intro hc
    have h := (hcourse.resolve_left fun h => h.1 hc).2
    exact (h.call vt .pass).2
  · intro hn
    have h := (hcourse.resolve_right fun h => hn h.1).2
    exact h.firedCount? vt
  · intro later
    exact hlater.handedOutAs (Clocked.valid_call vt _) later

/-- A late pass hands the event out once, and the next period begins with it. -/
example :
    ({ now := 0 } : Clocked Char).beats 1
      [.schedule 0 true 'a', .tick 3500000, .pass, .tick 999999, .pass,
    .tick 1, .pass, .cancel 1, .tick 5000000, .pass] = [3500000, 4500000] := by cbv

end SessionDispatch.Timer
