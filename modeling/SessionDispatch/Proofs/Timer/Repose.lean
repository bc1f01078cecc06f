import SessionDispatch.Proofs.Timer.Vigilance

/-!
# The timer loop does not spin

What a pass leaves armed has time left: a one-shot event without any is gone, and a repeating one
begins a period of a millisecond at least. A deadline past the end of the clock is cut short to a
century from the pass, which is later than the pass too. So a pass leaves nothing to a second one at
the same instant, and the loop that made it hands out what was due, plans, and goes to sleep. If it
is woken without cause, it goes back to sleep without another pass.
-/

namespace SessionDispatch.Timer

variable {α : Type}

namespace Event

/-- An event as it was armed, or as passes at any instants left it. -/
inductive Kept : Event α → Prop
  | arm (id : Nat) (now : Instant) (timeout : Span) (repeats : Bool) (action : α) :
      Kept (.arm id now timeout repeats action)
  | advance {e : Event α} (now : Instant) : Kept e → (e.advance now).2.isSpent = false →
      Kept (e.advance now).2

variable {e : Event α} {now : Instant}

theorem Kept.isSpent (h : e.Kept) : e.isSpent = false := by
  cases h with
  | arm id now timeout repeats action => exact isSpent_arm now timeout repeats action id
  | advance now h hs => exact hs

theorem Kept.minPeriod_le (h : e.Kept) (hr : e.repeats = true) : minPeriod ≤ e.timeout := by
  induction h with
  | arm id now timeout repeats action =>
      rw [show repeats = true from hr]
      exact Nat.le_max_right timeout minPeriod
  | advance now h hs ih =>
      rw [advance_repeats] at hr
      rw [advance_timeout]
      exact ih hr

/-- A pass that keeps an event leaves it time, if need be that of a new period. -/
theorem Kept.remaining_advance_pos (h : e.Kept) (hs : (e.advance now).2.isSpent = false) :
    0 < (e.advance now).2.remaining := by
  rw [isSpent_advance now h.isSpent] at hs
  unfold Event.advance at hs ⊢
  dsimp only at hs ⊢
  split_ifs at hs ⊢ with h0 hr
  · exact Nat.lt_of_lt_of_le (by decide) (h.minPeriod_le hr)
  · simp [hr] at hs
  · exact Nat.pos_of_ne_zero h0

/-- Time that is left keeps the deadline ahead, wherever the end of the clock cuts it short. -/
theorem lt_deadline (hc : e.checkpoint = now) (hr : 0 < e.remaining)
    (hn : now + farFuture ≤ Instant.latest) :
    now < e.deadline := by
  unfold deadline Instant.after?
  rw [hc, if_pos hn]
  split_ifs
  · exact Nat.lt_add_of_pos_right hr
  · exact Nat.lt_add_of_pos_right (by decide)

/-- To an event that has time left a pass at the instant of its checkpoint does nothing. -/
theorem advance_of_current (hc : e.checkpoint = now) (hr : 0 < e.remaining) :
    e.advance now = (false, e) := by
  subst hc
  unfold advance
  rw [Nat.sub_self, Nat.sub_zero, if_neg (Nat.ne_of_gt hr)]

end Event

/-! ## What a pass leaves -/

section Pass

variable {t : Timer α} {now : Instant}

theorem isSpent_of_mem_pass {x : Event α} (hx : x ∈ (t.pass now).2.events) : x.isSpent = false := by
  have hleft := (List.mergeSort_perm _ _).mem_iff.mp hx
  simpa using (List.mem_filter.mp hleft).2

theorem kept_pass (h : ∀ e ∈ t.events, e.Kept) : ∀ x ∈ (t.pass now).2.events, x.Kept := by
  intro x hx
  obtain ⟨e, he, rfl⟩ := exists_of_mem_pass hx
  exact .advance now (h e he) (isSpent_of_mem_pass hx)

theorem remaining_pass_pos (h : ∀ e ∈ t.events, e.Kept) :
    ∀ x ∈ (t.pass now).2.events, 0 < x.remaining := by
  intro x hx
  obtain ⟨e, he, rfl⟩ := exists_of_mem_pass hx
  exact (h e he).remaining_advance_pos (isSpent_of_mem_pass hx)

theorem lt_deadline_pass (h : ∀ e ∈ t.events, e.Kept) (hn : now + farFuture ≤ Instant.latest) :
    ∀ x ∈ (t.pass now).2.events, now < x.deadline := fun x hx =>
  Event.lt_deadline (checkpoint_pass hx) (remaining_pass_pos h x hx) hn

/-- A second pass at the same instant finds nothing to do. -/
theorem pass_pass (h : ∀ e ∈ t.events, e.Kept) :
    (t.pass now).2.pass now = ([], (t.pass now).2) := by
  have hpos : ∀ x ∈ (t.pass now).2.events, 0 < x.remaining := remaining_pass_pos h
  have hsorted := pairwise_remaining_pass t now
  have hspent : ∀ x ∈ (t.pass now).2.events, (!x.isSpent) = true := fun x hx => by
    rw [isSpent_of_mem_pass hx]; rfl
  have hcheckpoint : ∀ x ∈ (t.pass now).2.events, x.checkpoint = now := fun x => checkpoint_pass
  generalize (t.pass now).2 = left at hpos hsorted hspent hcheckpoint
  have hadvance : left.events.map (·.advance now) = left.events.map fun x => (false, x) :=
    List.map_congr_left fun x hx => Event.advance_of_current (hcheckpoint x hx) (hpos x hx)
  have hdue : (left.events.map fun x => (false, x)).filter (·.1) = [] := by
    rw [List.filter_map]
    simp
  have hstay :
      ((left.events.map fun x => (false, x)).map (·.2)).filter (!·.isSpent) = left.events := by
    simp only [List.map_map, Function.comp_def, List.map_id']
    exact List.filter_eq_self.mpr hspent
  have hsort :
      left.events.mergeSort (fun a b => decide (a.remaining ≤ b.remaining)) = left.events :=
    List.mergeSort_of_pairwise (hsorted.imp fun h => decide_eq_true h)
  unfold pass
  dsimp only
  rw [hadvance, hdue, hstay, hsort]
  rfl

end Pass

/-! ## The events of a history, and those of a loop -/

theorem Clocked.kept_run (begun : Instant) (calls : List (Call α)) :
    ∀ e ∈ (({ now := begun } : Clocked α).run calls).timer.events, e.Kept := by
  induction calls using List.reverseRecOn with
  | nil => nofun
  | append_singleton calls c ih =>
      rw [Clocked.run_concat]
      cases c with
      | schedule timeout repeats action =>
          intro e he
          rcases (mem_schedule ..).mp he with rfl | he
          · exact .arm ..
          · exact ih e he
      | cancel id => exact fun e he => ih e (List.mem_of_mem_eraseP he)
      | pass => exact kept_pass ih
      | tick d => exact ih

namespace Loop

variable {l l' : Loop α} {a : Act α} {now : Instant}

/-- Whatever is armed, or about to be, is as it was made or as passes left it. -/
def KeepsTime (l : Loop α) : Prop := (∀ e ∈ l.timer.events, e.Kept) ∧ ∀ e ∈ l.made, e.Kept

namespace KeepsTime

theorem leaveSleep (h : l.KeepsTime) : l.leaveSleep.KeepsTime := by
  unfold Loop.leaveSleep
  dsimp only
  split_ifs
  · exact h
  · exact ⟨kept_pass h.1, h.2⟩

theorem act (h : l.KeepsTime) (ha : l.act a = some l') : l'.KeepsTime := by
  cases a with
  | make timeout repeats action =>
      obtain rfl := Option.some.inj ha
      refine ⟨h.1, fun e he => ?_⟩
      rcases List.mem_append.mp he with he | he
      · exact h.2 e he
      · rw [List.mem_singleton.mp he]
        exact .arm ..
  | arm position =>
      obtain ⟨x, hx, rfl⟩ := Option.map_eq_some_iff.mp ha
      refine ⟨fun e he => ?_, fun e he => h.2 e (List.mem_of_mem_eraseIdx he)⟩
      rcases mem_insert.mp he with rfl | he
      · exact h.2 e (List.mem_of_getElem? hx)
      · exact h.1 e he
  | cancel id =>
      obtain rfl := Option.some.inj ha
      exact ⟨fun e he => h.1 e (List.mem_of_mem_eraseP he), h.2⟩
  | shutdown | tick d =>
      obtain rfl := Option.some.inj ha
      exact h
  | notify =>
      obtain ⟨-, ⟨-, -, rfl⟩ | ⟨-, rfl⟩ | ⟨-, rfl⟩⟩ := act_notify ha <;> exact h
  | plan =>
      obtain ⟨-, ⟨-, rfl⟩ | ⟨-, -, rfl⟩ | ⟨-, e, rest, -, rfl⟩⟩ := act_plan ha
      · exact h
      · exact h
      · split_ifs
        · exact leaveSleep h
        · exact h
  | timeOut =>
      obtain ⟨-, -, -, rfl⟩ := act_timeOut ha
      exact h
  | stir =>
      obtain ⟨-, -, rfl⟩ | ⟨-, rfl⟩ := act_stir ha <;> exact h
  | resume =>
      obtain ⟨-, rfl⟩ | ⟨-, -, -, rfl | ⟨-, -, rfl⟩⟩ := act_resume ha
      · exact h
      · exact leaveSleep h
      · exact h
  | dispatched =>
      obtain ⟨-, -, rfl⟩ := act_dispatched ha
      exact h

theorem run (h : l.KeepsTime) {acts : List (Act α)} (hr : l.run acts = some l') : l'.KeepsTime :=
  Run.invariant KeepsTime (fun _ _ _ h ha => h.act ha) h hr

end KeepsTime

/-! ## The loop left alone -/

def Act.isQuiet : Act α → Bool
  | make .. | arm _ | cancel _ | shutdown | tick _ => false
  | notify | plan | timeOut | stir | resume | dispatched => true

def Act.wakes : Act α → Bool
  | notify | stir => true
  | _ => false

/-- How many acts of its own the loop has before it until it sleeps or ends, if it makes no pass. -/
def effort : Phase α → Nat
  | .dispatching _ | .idleWoken => 2
  | .planning | .woken .. => 1
  | .idle | .asleep _ | .ended => 0

/-- The loop has no pass before it: what is armed is not due, and neither is what it
sleeps towards. -/
structure Reposes (t : Timer α) (now : Instant) (l : Loop α) : Prop where
  timer : l.timer = t
  current : l.now = now
  clear : l.fallThrough = false
  ahead : l.phase = .ended ∨ ∀ e ∈ t.events, now < e.deadline
  asleep : ∀ deadline, target? l.phase = some deadline → now < deadline
  early : ∀ deadline, l.phase ≠ .woken deadline true

theorem reposes_leaveSleep (h : ∀ e ∈ l.timer.events, e.Kept)
    (hn : l.now + farFuture ≤ Instant.latest) :
    l.leaveSleep.Reposes l.leaveSleep.timer l.now ∧ effort l.leaveSleep.phase ≤ 2 := by
  unfold leaveSleep
  dsimp only
  split_ifs
  · exact ⟨⟨rfl, rfl, rfl, .inl rfl, nofun, nofun⟩, Nat.zero_le 2⟩
  · unfold evaluate
    dsimp only
    split_ifs
    · exact ⟨⟨rfl, rfl, rfl, .inr (lt_deadline_pass h hn), nofun, nofun⟩, Nat.le_succ 1⟩
    · exact ⟨⟨rfl, rfl, rfl, .inr (lt_deadline_pass h hn), nofun, nofun⟩, Nat.le_refl 2⟩

/-- A loop that is woken before its time goes back to sleep, unless it has been told to end. -/
theorem act_resume_early {deadline : Instant} (hp : l.phase = .woken deadline false)
    (hf : l.fallThrough = false) (ha : l.act .resume = some l') :
    l' = { l with awaiting := none, fallThrough := false, phase := .ended } ∨
      l' = { l with phase := .asleep deadline } := by
  simp only [act, hp, hf, Bool.false_or, Bool.or_false] at ha
  split_ifs at ha with hs
  · rw [leaveSleep] at ha
    dsimp only at ha
    rw [if_pos hs] at ha
    exact .inl (Option.some.inj ha).symm
  · right
    rw [hf]
    exact (Option.some.inj ha).symm

namespace Reposes

variable {t : Timer α}

/-- The loop goes on to a phase that leads to no pass. -/
theorem goOn (h : l.Reposes t now) (hp : l.phase ≠ .ended) (notices : Nat)
    (awaiting : Option Instant) {phase : Phase α}
    (hasleep : ∀ deadline, target? phase = some deadline → now < deadline)
    (hearly : ∀ deadline, phase ≠ .woken deadline true) :
    ({ l with notices, awaiting, phase } : Loop α).Reposes t now :=
  ⟨h.timer, h.current, h.clear, .inr (h.ahead.resolve_left hp), hasleep, hearly⟩

/-- Whatever it does alone leaves the loop without a pass before it, and brings it nearer to sleep.
A wake-up costs it two acts at most. -/
theorem act (h : l.Reposes t now) (hq : a.isQuiet = true) (ha : l.act a = some l') :
    l'.Reposes t now ∧
      effort l'.phase + (if a.wakes then 0 else 1) ≤ effort l.phase + if a.wakes then 2 else 0 := by
  cases a with
  | make | arm | cancel | shutdown | tick => cases hq
  | notify =>
      obtain ⟨-, ⟨deadline, hp, rfl⟩ | ⟨hp, rfl⟩ | ⟨-, rfl⟩⟩ := act_notify ha
      · have hd : now < deadline := h.asleep deadline (by rw [hp]; rfl)
        exact ⟨h.goOn (by simp [hp]) _ _ (by simpa [target?] using hd) nofun,
          by simp [Act.wakes, effort]⟩
      · exact ⟨h.goOn (by simp [hp]) _ _ nofun nofun, by simp [Act.wakes, effort]⟩
      · exact ⟨⟨h.timer, h.current, h.clear, h.ahead, h.asleep, h.early⟩, by simp [Act.wakes]⟩
  | plan =>
      obtain ⟨hp, ⟨-, rfl⟩ | ⟨-, -, rfl⟩ | ⟨-, e, rest, he, rfl⟩⟩ := act_plan ha
      · exact ⟨h.goOn (by simp [hp]) _ _ nofun nofun, by simp [hp, Act.wakes, effort]⟩
      · exact ⟨h.goOn (by simp [hp]) _ _ nofun nofun, by simp [hp, Act.wakes, effort]⟩
      · have hd : now < e.deadline := by
          refine h.ahead.resolve_left (by simp [hp]) e ?_
          rw [← h.timer, he]
          exact List.mem_cons_self
        rw [if_neg (by simp [h.clear])]
        exact ⟨h.goOn (by simp [hp]) _ _ (by simpa [target?] using hd) nofun,
          by simp [hp, Act.wakes, effort]⟩
  | timeOut =>
      obtain ⟨deadline, hp, hd, -⟩ := act_timeOut ha
      have hlt : now < deadline := h.asleep deadline (by rw [hp]; rfl)
      rw [h.current] at hd
      exact absurd hd (Nat.not_le.mpr hlt)
  | stir =>
      obtain ⟨deadline, hp, rfl⟩ | ⟨hp, rfl⟩ := act_stir ha
      · have hd : now < deadline := h.asleep deadline (by rw [hp]; rfl)
        exact ⟨h.goOn (by simp [hp]) _ _ (by simpa [target?] using hd) nofun,
          by simp [Act.wakes, effort]⟩
      · exact ⟨h.goOn (by simp [hp]) _ _ nofun nofun, by simp [Act.wakes, effort]⟩
  | resume =>
      obtain ⟨hp, rfl⟩ | ⟨deadline, timedOut, hp, -⟩ := act_resume ha
      · exact ⟨h.goOn (by simp [hp]) _ _ nofun nofun, by simp [hp, Act.wakes, effort]⟩
      · cases timedOut with
        | true => exact absurd hp (h.early deadline)
        | false =>
            obtain rfl | rfl := act_resume_early hp h.clear ha
            · exact ⟨⟨h.timer, h.current, rfl, .inl rfl, nofun, nofun⟩,
                by simp [hp, Act.wakes, effort]⟩
            · refine ⟨h.goOn (by simp [hp]) _ _ ?_ nofun, by simp [hp, Act.wakes, effort]⟩
              exact fun d hd => h.asleep d (by rw [hp]; exact hd)
  | dispatched =>
      obtain ⟨due, hp, rfl⟩ := act_dispatched ha
      exact ⟨h.goOn (by simp [hp]) _ _ nofun nofun, by simp [hp, Act.wakes, effort]⟩

theorem run (h : l.Reposes t now) {acts : List (Act α)} (hq : ∀ a ∈ acts, a.isQuiet = true)
    (hr : l.run acts = some l') :
    l'.Reposes t now ∧
      effort l'.phase + acts.countP (!·.wakes) ≤ effort l.phase + 2 * acts.countP (·.wakes) := by
  induction acts generalizing l with
  | nil =>
      obtain rfl := Option.some.inj hr
      exact ⟨h, Nat.le_refl _⟩
  | cons a acts ih =>
      obtain ⟨u, hu, hr⟩ := Run.foldlM_cons_eq_some hr
      obtain ⟨ha, hrest⟩ := List.forall_mem_cons.mp hq
      obtain ⟨hreposes, hone⟩ := h.act ha hu
      obtain ⟨hend, hmore⟩ := ih hreposes hrest hr
      refine ⟨hend, ?_⟩
      rw [List.countP_cons, List.countP_cons]
      cases hw : a.wakes
      all_goals
        simp only [hw, Bool.not_true, Bool.not_false, Bool.false_eq_true, if_true, if_false]
          at hone ⊢
        omega

end Reposes

/-- Whatever is armed was armed once, and kept by the passes since. After another pass all that
stays has time left from that instant on, and a second pass at once would hand out nothing and leave
the list as it is. The loop that made the pass goes to sleep after two acts, towards an instant that
is still to come. As long as time stands still and nobody calls the timer it makes no other pass,
and needs two acts more at most for each time it is woken. -/
theorem pass_leaves_nothing_due {now : Instant} (hn : now + farFuture ≤ Instant.latest) :
    (∀ begun (acts : List (Act α)) l, (start begun).run acts = some l →
      ∀ e ∈ l.timer.events, e.Kept) ∧
    (∀ begun (calls : List (Call α)), ∀ e ∈ (({ now := begun } : Clocked α).run calls).timer.events,
      e.Kept) ∧
    ∀ t : Timer α, (∀ e ∈ t.events, e.Kept) →
      let left := (t.pass now).2
      (∀ e ∈ left.events, 0 < e.remaining ∧ e.checkpoint = now ∧ now < e.deadline) ∧
      left.pass now = ([], left) ∧
      ∀ l : Loop α, l.timer = t → l.now = now → t.stopped = false →
        l.leaveSleep.timer = left ∧
        ∀ acts l', (∀ a ∈ acts, a.isQuiet = true) → l.leaveSleep.run acts = some l' →
          l'.timer = left ∧ (∀ deadline, l'.phase = .asleep deadline → now < deadline) ∧
          acts.countP (!·.wakes) ≤ 2 + 2 * acts.countP (·.wakes) := by
  refine ⟨?_, Clocked.kept_run, ?_⟩
  · intro begun acts l hr
    have hstart : (start begun : Loop α).KeepsTime := ⟨nofun, nofun⟩
    exact (hstart.run hr).1
  · intro t hkept left
    refine ⟨fun e he => ⟨?_, ?_, ?_⟩, pass_pass hkept, ?_⟩
    · exact remaining_pass_pos hkept e he
    · exact checkpoint_pass he
    · exact lt_deadline_pass hkept hn e he
    · rintro l rfl rfl hopen
      have htimer : l.leaveSleep.timer = left := by
        unfold leaveSleep
        dsimp only
        rw [if_neg (by simp [hopen])]
        rfl
      refine ⟨htimer, fun acts l' hq hr => ?_⟩
      obtain ⟨hreposes, heffort⟩ := reposes_leaveSleep hkept hn
      obtain ⟨hend, hcount⟩ := hreposes.run hq hr
      refine ⟨hend.timer.trans htimer, fun deadline hp => ?_, by omega⟩
      exact hend.asleep deadline (by rw [hp]; rfl)

/-- An event without a timeout, one with a period of a nanosecond and one without end wait for a
pass that comes three seconds late. -/
def sparks : List (Act Char) :=
  [.make 0 false 'z', .make 1 true 'r', .make .longest false 'x', .arm 2, .arm 0, .arm 0, .plan,
    .tick (.ofSecs 3), .timeOut]

theorem pass_leaves_nothing_due_sparks :
    ∃ l l', (start 0).run sparks = some l ∧
      l.leaveSleep.run [.dispatched, .plan, .notify, .resume, .stir, .resume] = some l' ∧
      l'.phase = .asleep (Span.ofSecs 3 + Span.ofMillis 1) ∧
      l'.timer.events.map (·.deadline) =
          [Span.ofSecs 3 + Span.ofMillis 1, Span.ofSecs 3 + farFuture] ∧
      (∀ e ∈ l'.timer.events, 0 < e.remaining ∧ e.checkpoint = Span.ofSecs 3 ∧
        Span.ofSecs 3 < e.deadline) ∧
      l'.timer.pass (Span.ofSecs 3) = ([], l'.timer) := by
  have hrun : ((start 0).run sparks).bind (fun l =>
      (l.leaveSleep.run [.dispatched, .plan, .notify, .resume, .stir, .resume]).map fun l' =>
        (l.now, l.timer.stopped, l'.phase, l'.timer.events.map (·.deadline))) =
      some (Span.ofSecs 3, false, .asleep (Span.ofSecs 3 + Span.ofMillis 1),
        [Span.ofSecs 3 + Span.ofMillis 1, Span.ofSecs 3 + farFuture]) := by cbv
  obtain ⟨l, hl, hrun⟩ := Option.bind_eq_some_iff.mp hrun
  obtain ⟨l', hl', hrun⟩ := Option.map_eq_some_iff.mp hrun
  simp only [Prod.mk.injEq] at hrun
  obtain ⟨hnow, hopen, hphase, hdeadlines⟩ := hrun
  have hearly : Span.ofSecs 3 + farFuture ≤ Instant.latest := by decide
  obtain ⟨hkept, -, hpass⟩ := pass_leaves_nothing_due (α := Char) hearly
  obtain ⟨hleft, hagain, hloop⟩ := hpass l.timer (hkept 0 sparks l hl)
  obtain ⟨htimer, -⟩ := (hloop l rfl hnow hopen).2 _ l' (by decide) hl'
  refine ⟨l, l', hl, hl', hphase, hdeadlines, ?_, ?_⟩
  · rw [htimer]
    exact hleft
  · rw [htimer]
    exact hagain

end Loop

end SessionDispatch.Timer
