import SessionDispatch.Proofs.Run
import SessionDispatch.Proofs.Timer.Sorting
import SessionDispatch.Timer.Loop

/-!
# The timer loop wakes in time

As long as no timeout reaches past the end of the clock, the armed events stand in the order of
their deadlines, and the loop sleeps towards the first. An event that is armed earlier than that
raises a flag, a stop raises another, and both post a notification that the loop has not seen while
it sleeps. So it sleeps past no deadline and no stop, unless something is there to wake it.
-/

namespace SessionDispatch.Timer

variable {α : Type}

/-- No deadline within this time of the end of the clock is cut short. -/
def longestTimeout : Span := .ofMillis (UInt64.size - 1)

/-! ## Deadlines -/

namespace Event

/-- The event's time has begun, and what remains of it is no longer than a caller may ask for. -/
structure Timely (e : Event α) (now : Instant) : Prop where
  checkpoint : e.checkpoint ≤ now
  remaining : e.remaining ≤ longestTimeout
  timeout : e.timeout ≤ longestTimeout

variable {e : Event α} {now later : Instant}

theorem timely_arm {timeout : Span} (id : Nat) (now : Instant) (repeats : Bool) (action : α)
    (h : timeout ≤ longestTimeout) : (arm id now timeout repeats action).Timely now := by
  have hp : minPeriod ≤ longestTimeout := by decide
  have hm : (if repeats then max timeout minPeriod else timeout) ≤ longestTimeout := by
    split_ifs
    · exact Nat.max_le.mpr ⟨h, hp⟩
    · exact h
  exact ⟨Nat.le_refl now, hm, hm⟩

namespace Timely

theorem mono (he : e.Timely now) (h : now ≤ later) : e.Timely later :=
  ⟨Nat.le_trans he.checkpoint h, he.remaining, he.timeout⟩

theorem advance (he : e.Timely now) (later : Instant) : (e.advance later).2.Timely later := by
  constructor
  · exact Nat.le_of_eq (advance_checkpoint e later)
  · exact advance_remaining_le he.timeout he.remaining later
  · rw [advance_timeout]
    exact he.timeout

/-- Far enough from the end of the clock an event is due at its deadline. -/
theorem deadline_eq (he : e.Timely now) (hn : now + longestTimeout ≤ Instant.latest) :
    e.deadline = e.due := by
  apply deadline_eq_due
  exact Nat.le_trans (Nat.add_le_add he.checkpoint he.remaining) hn

end Timely

end Event

/-! ## The order of the list -/

variable {t : Timer α} {now : Instant}

theorem timely_pass (he : ∀ e ∈ t.events, e.Timely now) :
    ∀ e ∈ (t.pass now).2.events, e.Timely now := by
  intro x hx
  obtain ⟨e, hm, rfl⟩ := exists_of_mem_pass hx
  exact (he e hm).advance now

/-- Far enough from the end of the clock no deadline is cut short. -/
theorem sorted_pass (he : ∀ e ∈ t.events, e.Timely now)
    (hn : now + longestTimeout ≤ Instant.latest) :
    Sorted (t.pass now).2.events := by
  rw [sorted_pass_iff]
  intro x _ y hy _ hyd
  have htimely := timely_pass he y hy
  have hdue : y.due ≤ now + longestTimeout := Nat.add_le_add htimely.checkpoint htimely.remaining
  exact absurd (Nat.le_trans hdue hn) (Nat.not_le.mpr hyd)

namespace Loop

variable {l l' : Loop α} {a : Act α}

/-- The deadline that the loop sleeps towards, or has been woken from. -/
def target? : Phase α → Option Instant
  | .asleep deadline | .woken deadline _ => some deadline
  | .planning | .idle | .idleWoken | .dispatching _ | .ended => none

def Sleeps (l : Loop α) : Prop := l.phase = .idle ∨ ∃ deadline, l.phase = .asleep deadline

/-- Only timeouts of so many milliseconds that 64 bits can hold are asked for. -/
def Act.Bounded : Act α → Prop
  | .make timeout _ _ => timeout ≤ longestTimeout
  | _ => True

/-! ## What one act of the loop does -/

/-- A notification reaches the loop if it sleeps, and nobody otherwise. -/
theorem act_notify (ha : l.act .notify = some l') :
    0 < l.notices ∧
      ((∃ deadline, l.phase = .asleep deadline ∧
          l' = { l with notices := l.notices - 1, phase := .woken deadline false }) ∨
        (l.phase = .idle ∧ l' = { l with notices := l.notices - 1, phase := .idleWoken }) ∨
        (¬l.Sleeps ∧ l' = { l with notices := l.notices - 1 })) := by
  simp only [act] at ha
  split_ifs at ha with h0
  obtain rfl := Option.some.inj ha
  constructor
  · exact Nat.pos_of_ne_zero h0
  · cases hp : l.phase with
    | asleep deadline => exact .inl ⟨deadline, rfl, rfl⟩
    | idle => exact .inr (.inl ⟨rfl, rfl⟩)
    | planning | idleWoken | woken _ _ | dispatching _ | ended =>
        exact .inr (.inr ⟨by simp [Sleeps, hp], rfl⟩)

theorem act_plan (ha : l.act .plan = some l') :
    l.phase = .planning ∧
      ((l.timer.stopped = true ∧ l' = { l with phase := .ended }) ∨
        (l.timer.stopped = false ∧ l.timer.events = [] ∧ l' = { l with phase := .idle }) ∨
        (l.timer.stopped = false ∧ ∃ e events, l.timer.events = e :: events ∧ l' =
          if l.fallThrough then leaveSleep { l with awaiting := some e.deadline }
          else { l with awaiting := some e.deadline, phase := .asleep e.deadline })) := by
  simp only [act] at ha
  split at ha
  · rename_i hp
    constructor
    · exact hp
    cases hs : l.timer.stopped with
    | true =>
        rw [if_pos hs] at ha
        exact .inl ⟨rfl, (Option.some.inj ha).symm⟩
    | false =>
        rw [if_neg (Bool.eq_false_iff.mp hs)] at ha
        right
        cases he : l.timer.events with
        | nil =>
            rw [he] at ha
            exact .inl ⟨rfl, rfl, (Option.some.inj ha).symm⟩
        | cons e events =>
            rw [he, List.head?_cons] at ha
            refine .inr ⟨rfl, e, events, rfl, ?_⟩
            dsimp only at ha
            split_ifs at ha ⊢ <;> exact (Option.some.inj ha).symm
  · cases ha

theorem act_timeOut (ha : l.act .timeOut = some l') :
    ∃ deadline, l.phase = .asleep deadline ∧ deadline ≤ l.now ∧
      l' = { l with phase := .woken deadline true } := by
  simp only [act] at ha
  split at ha
  · rename_i deadline hp
    split_ifs at ha with hd
    exact ⟨deadline, hp, hd, (Option.some.inj ha).symm⟩
  · cases ha

theorem act_stir (ha : l.act .stir = some l') :
    (∃ deadline, l.phase = .asleep deadline ∧ l' = { l with phase := .woken deadline false }) ∨
      (l.phase = .idle ∧ l' = { l with phase := .idleWoken }) := by
  simp only [act] at ha
  split at ha
  · rename_i deadline hp
    exact .inl ⟨deadline, hp, (Option.some.inj ha).symm⟩
  · rename_i hp
    exact .inr ⟨hp, (Option.some.inj ha).symm⟩
  · cases ha

/-- A loop that has been woken goes on only if it slept long enough or one of the flags is up. -/
theorem act_resume (ha : l.act .resume = some l') :
    (l.phase = .idleWoken ∧ l' = { l with phase := .planning }) ∨
      ∃ deadline timedOut, l.phase = .woken deadline timedOut ∧
        (l' = l.leaveSleep ∨ (l.timer.stopped = false ∧ l.fallThrough = false ∧
          l' = { l with phase := .asleep deadline })) := by
  simp only [act] at ha
  split at ha
  · rename_i hp
    exact .inl ⟨hp, (Option.some.inj ha).symm⟩
  · rename_i deadline timedOut hp
    refine .inr ⟨deadline, timedOut, hp, ?_⟩
    split_ifs at ha with h
    · exact .inl (Option.some.inj ha).symm
    · simp only [Bool.or_eq_true, not_or, Bool.not_eq_true] at h
      exact .inr ⟨h.1.2, h.2, (Option.some.inj ha).symm⟩
  · cases ha

theorem act_dispatched (ha : l.act .dispatched = some l') :
    ∃ due, l.phase = .dispatching due ∧ l' = { l with phase := .planning } := by
  simp only [act] at ha
  split at ha
  · rename_i due hp
    exact ⟨due, hp, (Option.some.inj ha).symm⟩
  · cases ha

/-! ## What the loop keeps -/

/-- What the loop may rely on, and what it owes to those who wait for their events. -/
structure Vigilant (l : Loop α) : Prop where
  timely : ∀ e ∈ l.timer.events, e.Timely l.now
  coming : ∀ e ∈ l.made, e.Timely l.now
  sorted : Sorted l.timer.events
  awaiting : l.awaiting = target? l.phase
  clear : target? l.phase = none → l.fallThrough = false
  nearest : ∀ deadline, target? l.phase = some deadline → l.fallThrough = false →
    ∀ e ∈ l.timer.events, deadline ≤ e.deadline
  posted : ∀ deadline, l.phase = .asleep deadline → l.fallThrough = true ∨ l.timer.stopped = true →
    0 < l.notices
  idle : l.phase = .idle → l.timer.events ≠ [] ∨ l.timer.stopped = true → 0 < l.notices

theorem vigilant_start (now : Instant) : (start now : Loop α).Vigilant where
  timely := nofun
  coming := nofun
  sorted := List.Pairwise.nil
  awaiting := rfl
  clear := fun _ => rfl
  nearest := nofun
  posted := nofun
  idle := nofun

namespace Vigilant

/-- The loop goes on without having slept: it has no deadline before it and no flag to heed. -/
theorem awake (hl : l.Vigilant) (h : target? l.phase = none) (notices : Nat) {phase : Phase α}
    (hp : target? phase = none) (hi : phase ≠ .idle) :
    ({ l with notices, phase } : Loop α).Vigilant where
  timely := hl.timely
  coming := hl.coming
  sorted := hl.sorted
  awaiting := hl.awaiting.trans (h.trans hp.symm)
  clear := fun _ => hl.clear h
  nearest := fun deadline hd => absurd (hp.symm.trans hd) nofun
  posted := fun deadline hd => by
    rw [show phase = .asleep deadline from hd] at hp
    cases hp
  idle := fun h => absurd h hi

/-- The loop is woken from the sleep that it was in. -/
theorem wake {deadline : Instant} (hl : l.Vigilant) (h : l.phase = .asleep deadline) (notices : Nat)
    (timedOut : Bool) :
    ({ l with notices, phase := .woken deadline timedOut } : Loop α).Vigilant where
  timely := hl.timely
  coming := hl.coming
  sorted := hl.sorted
  awaiting := by rw [hl.awaiting, h]; rfl
  clear := nofun
  nearest := fun d hd => hl.nearest d (by rw [h]; exact hd)
  posted := nofun
  idle := nofun

/-- A notification that finds the loop awake is of no use. -/
theorem unheard (hl : l.Vigilant) (h : ¬l.Sleeps) (notices : Nat) :
    ({ l with notices } : Loop α).Vigilant where
  timely := hl.timely
  coming := hl.coming
  sorted := hl.sorted
  awaiting := hl.awaiting
  clear := hl.clear
  nearest := hl.nearest
  posted := fun deadline hp => absurd (.inr ⟨deadline, hp⟩) h
  idle := fun hp => absurd (.inl hp) h

theorem make (hl : l.Vigilant) {e : Event α} (he : e.Timely l.now) (nextId : Nat) :
    ({ l with timer := { l.timer with nextId }, made := l.made ++ [e] } : Loop α).Vigilant where
  timely := hl.timely
  coming := fun x hx => by
    rcases List.mem_append.mp hx with hx | hx
    · exact hl.coming x hx
    · rw [List.mem_singleton.mp hx]
      exact he
  sorted := hl.sorted
  awaiting := hl.awaiting
  clear := hl.clear
  nearest := hl.nearest
  posted := hl.posted
  idle := hl.idle

/-- An event that is nearer than what the loop sleeps towards raises the flag. -/
theorem arm (hl : l.Vigilant) {i : Nat} {e : Event α} (hi : l.made[i]? = some e) :
    ({ l with
      timer := { l.timer with events := insert l.timer.events e }
      made := l.made.eraseIdx i
      fallThrough := l.fallThrough || l.awaiting.any (e.deadline < ·)
      notices := l.notices + 1 } : Loop α).Vigilant where
  timely := fun x hx => by
    rcases mem_insert.mp hx with rfl | hx
    · exact hl.coming x (List.mem_of_getElem? hi)
    · exact hl.timely x hx
  coming := fun x hx => hl.coming x (List.mem_of_mem_eraseIdx hx)
  sorted := hl.sorted.insert e
  awaiting := hl.awaiting
  clear := fun h => by
    dsimp only
    rw [hl.clear h, hl.awaiting, h]
    rfl
  nearest := fun deadline hd hf x hx => by
    obtain ⟨hf, hany⟩ := Bool.or_eq_false_iff.mp hf
    rcases mem_insert.mp hx with rfl | hx
    · rw [hl.awaiting, show target? l.phase = some deadline from hd] at hany
      simpa using hany
    · exact hl.nearest deadline hd hf x hx
  posted := fun _ _ _ => Nat.succ_pos _
  idle := fun _ _ => Nat.succ_pos _

theorem cancel (hl : l.Vigilant) (id : Nat) :
    ({ l with timer := (l.timer.cancel id).2 } : Loop α).Vigilant := by
  have hsub : (l.timer.cancel id).2.events.Sublist l.timer.events := List.eraseP_sublist
  constructor
  · exact fun e he => hl.timely e (hsub.mem he)
  · exact hl.coming
  · exact hl.sorted.sublist hsub
  · exact hl.awaiting
  · exact hl.clear
  · exact fun deadline hd hf e he => hl.nearest deadline hd hf e (hsub.mem he)
  · exact hl.posted
  · intro hp h
    apply hl.idle hp
    rcases h with h | h
    · exact .inl fun he => h (List.sublist_nil.mp (he ▸ hsub))
    · exact .inr h

theorem stop (hl : l.Vigilant) :
    ({ l with timer := l.timer.stop, notices := l.notices + 1 } : Loop α).Vigilant where
  timely := hl.timely
  coming := hl.coming
  sorted := hl.sorted
  awaiting := hl.awaiting
  clear := hl.clear
  nearest := hl.nearest
  posted := fun _ _ _ => Nat.succ_pos _
  idle := fun _ _ => Nat.succ_pos _

theorem tick (hl : l.Vigilant) (d : Span) : ({ l with now := l.now + d } : Loop α).Vigilant where
  timely := fun e he => (hl.timely e he).mono (Nat.le_add_right l.now d)
  coming := fun e he => (hl.coming e he).mono (Nat.le_add_right l.now d)
  sorted := hl.sorted
  awaiting := hl.awaiting
  clear := hl.clear
  nearest := hl.nearest
  posted := hl.posted
  idle := hl.idle

/-- The loop falls asleep without a deadline only if no event is armed. -/
theorem fallIdle (hl : l.Vigilant) (h : target? l.phase = none) (hs : l.timer.stopped = false)
    (he : l.timer.events = []) : ({ l with phase := .idle } : Loop α).Vigilant where
  timely := hl.timely
  coming := hl.coming
  sorted := hl.sorted
  awaiting := hl.awaiting.trans h
  clear := fun _ => hl.clear h
  nearest := nofun
  posted := nofun
  idle := fun _ hor => by
    rcases hor with hne | hstop
    · exact absurd he hne
    · exact absurd hs (ne_of_eq_of_ne hstop (Ne.symm Bool.false_ne_true))

/-- The loop falls asleep towards a deadline that no armed event undercuts, with both flags down. -/
theorem fallAsleep (hl : l.Vigilant) (hf : l.fallThrough = false) (hs : l.timer.stopped = false)
    {deadline : Instant} (hd : ∀ e ∈ l.timer.events, deadline ≤ e.deadline) :
    ({ l with awaiting := some deadline, phase := .asleep deadline } : Loop α).Vigilant where
  timely := hl.timely
  coming := hl.coming
  sorted := hl.sorted
  awaiting := rfl
  clear := nofun
  nearest := fun d h _ => by
    obtain rfl := Option.some.inj h
    exact hd
  posted := fun _ _ hor => by
    rcases hor with h | h
    · exact absurd (hf.symm.trans h) Bool.false_ne_true
    · exact absurd (hs.symm.trans h) Bool.false_ne_true
  idle := nofun

/-- After a sleep the flags are down, and a pass leaves the nearest deadline first. -/
theorem leaveSleep (hl : l.Vigilant) (hn : l.now + longestTimeout ≤ Instant.latest) :
    l.leaveSleep.Vigilant := by
  unfold Loop.leaveSleep
  dsimp only
  split_ifs
  · exact ⟨hl.timely, hl.coming, hl.sorted, rfl, fun _ => rfl, nofun, nofun, nofun⟩
  · unfold evaluate
    dsimp only
    split_ifs
    · exact ⟨timely_pass hl.timely, hl.coming, sorted_pass hl.timely hn, rfl, fun _ => rfl, nofun,
        nofun, nofun⟩
    · exact ⟨timely_pass hl.timely, hl.coming, sorted_pass hl.timely hn, rfl, fun _ => rfl, nofun,
        nofun, nofun⟩

/-- Every act keeps the loop vigilant, unless the clock comes too near to its end. -/
theorem act (hl : l.Vigilant) (hn : l.now + longestTimeout ≤ Instant.latest) (hb : a.Bounded)
    (ha : l.act a = some l') : l'.Vigilant := by
  cases a with
  | make timeout repeats action =>
      obtain rfl := Option.some.inj ha
      exact hl.make (Event.timely_arm l.timer.nextId l.now repeats action hb) (l.timer.nextId + 1)
  | arm i =>
      obtain ⟨e, he, rfl⟩ := Option.map_eq_some_iff.mp ha
      exact hl.arm he
  | cancel id =>
      obtain rfl := Option.some.inj ha
      exact hl.cancel id
  | shutdown =>
      obtain rfl := Option.some.inj ha
      exact hl.stop
  | tick d =>
      obtain rfl := Option.some.inj ha
      exact hl.tick d
  | notify =>
      obtain ⟨-, ⟨deadline, hp, rfl⟩ | ⟨hp, rfl⟩ | ⟨hp, rfl⟩⟩ := act_notify ha
      · exact hl.wake hp _ false
      · exact hl.awake (by rw [hp]; rfl) _ rfl nofun
      · exact hl.unheard hp _
  | plan =>
      obtain ⟨hp, ⟨-, rfl⟩ | ⟨hs, he, rfl⟩ | ⟨hs, e, events, he, rfl⟩⟩ := act_plan ha
      · exact hl.awake (by rw [hp]; rfl) _ rfl nofun
      · exact hl.fallIdle (by rw [hp]; rfl) hs he
      · have hf : l.fallThrough = false := hl.clear (by rw [hp]; rfl)
        rw [if_neg (Bool.eq_false_iff.mp hf)]
        apply hl.fallAsleep hf hs
        intro x hx
        have hsorted := hl.sorted
        rw [he] at hsorted hx
        rcases List.mem_cons.mp hx with rfl | hx
        · exact Nat.le_refl _
        · exact (List.pairwise_cons.mp hsorted).1 x hx
  | timeOut =>
      obtain ⟨deadline, hp, -, rfl⟩ := act_timeOut ha
      exact hl.wake hp _ true
  | stir =>
      obtain ⟨deadline, hp, rfl⟩ | ⟨hp, rfl⟩ := act_stir ha
      · exact hl.wake hp _ false
      · exact hl.awake (by rw [hp]; rfl) _ rfl nofun
  | resume =>
      obtain ⟨hp, rfl⟩ | ⟨deadline, timedOut, hp, rfl | ⟨hs, hf, rfl⟩⟩ := act_resume ha
      · exact hl.awake (by rw [hp]; rfl) _ rfl nofun
      · exact hl.leaveSleep hn
      · have ht : target? l.phase = some deadline := by rw [hp]; rfl
        have ha : l.awaiting = some deadline := hl.awaiting.trans ht
        have hv := hl.fallAsleep hf hs (hl.nearest deadline ht hf)
        rwa [← ha] at hv
  | dispatched =>
      obtain ⟨due, hp, rfl⟩ := act_dispatched ha
      exact hl.awake (by rw [hp]; rfl) _ rfl nofun

end Vigilant

/-! ## Runs -/

theorem leaveSleep_now (l : Loop α) : l.leaveSleep.now = l.now := by
  unfold leaveSleep
  dsimp only
  split_ifs
  · rfl
  · rfl

theorem now_le_act (ha : l.act a = some l') : l.now ≤ l'.now := by
  cases a with
  | make _ _ _ | cancel _ | shutdown =>
      obtain rfl := Option.some.inj ha
      exact Nat.le_refl _
  | tick d =>
      obtain rfl := Option.some.inj ha
      exact Nat.le_add_right _ _
  | arm i =>
      obtain ⟨e, -, rfl⟩ := Option.map_eq_some_iff.mp ha
      exact Nat.le_refl _
  | notify =>
      obtain ⟨-, ⟨deadline, -, rfl⟩ | ⟨-, rfl⟩ | ⟨-, rfl⟩⟩ := act_notify ha <;> exact Nat.le_refl _
  | plan =>
      obtain ⟨-, ⟨-, rfl⟩ | ⟨-, -, rfl⟩ | ⟨-, e, events, -, rfl⟩⟩ := act_plan ha
      · exact Nat.le_refl _
      · exact Nat.le_refl _
      · split_ifs
        · exact Nat.le_of_eq (leaveSleep_now _).symm
        · exact Nat.le_refl _
  | timeOut =>
      obtain ⟨deadline, -, -, rfl⟩ := act_timeOut ha
      exact Nat.le_refl _
  | stir =>
      obtain ⟨deadline, -, rfl⟩ | ⟨-, rfl⟩ := act_stir ha <;> exact Nat.le_refl _
  | resume =>
      obtain ⟨-, rfl⟩ | ⟨deadline, timedOut, -, rfl | ⟨-, -, rfl⟩⟩ := act_resume ha
      · exact Nat.le_refl _
      · exact Nat.le_of_eq (leaveSleep_now l).symm
      · exact Nat.le_refl _
  | dispatched =>
      obtain ⟨due, -, rfl⟩ := act_dispatched ha
      exact Nat.le_refl _

theorem Vigilant.run {acts : List (Act α)} (hacts : ∀ a ∈ acts, a.Bounded) (hl : l.Vigilant)
    (hr : l.run acts = some l') (hn : l'.now + longestTimeout ≤ Instant.latest) : l'.Vigilant := by
  refine Run.invariant_of_forall (fun l => l.now + longestTimeout ≤ Instant.latest →
    l.Vigilant) ?_ hacts
    (fun _ => hl) hr hn
  intro l a l' hb hl ha hn'
  have hn : l.now + longestTimeout ≤ Instant.latest :=
    Nat.le_trans (Nat.add_le_add_right (now_le_act ha) longestTimeout) hn'
  exact (hl hn).act hn hb ha

/-- A loop that sleeps although an armed event is due or the timer was stopped is about to
be woken. -/
theorem Vigilant.wakes (hl : l.Vigilant) (hsleep : l.Sleeps)
    (hdue : l.timer.stopped = true ∨ ∃ e ∈ l.timer.events, e.deadline ≤ l.now) :
    ∃ wake l', (wake = .notify ∨ wake = .timeOut) ∧ l.act wake = some l' ∧ ¬l'.Sleeps := by
  have hnotify : 0 < l.notices → ∃ wake l', (wake = .notify ∨ wake = .timeOut) ∧
      l.act wake = some l' ∧ ¬l'.Sleeps := by
    intro hpos
    refine ⟨.notify, _, .inl rfl, if_neg (Nat.ne_of_gt hpos), ?_⟩
    rcases hsleep with hp | ⟨deadline, hp⟩ <;> simp [Sleeps, hp]
  rcases hsleep with hp | ⟨deadline, hp⟩
  · apply hnotify
    apply hl.idle hp
    rcases hdue with hstop | ⟨e, he, -⟩
    · exact .inr hstop
    · exact .inl (List.ne_nil_of_mem he)
  · by_cases hflag : l.fallThrough = true ∨ l.timer.stopped = true
    · exact hnotify (hl.posted deadline hp hflag)
    · obtain ⟨hf, hs⟩ := not_or.mp hflag
      obtain ⟨e, he, hle⟩ := hdue.resolve_left hs
      have hnear := hl.nearest deadline (by rw [hp]; rfl) (Bool.eq_false_iff.mpr hf) e he
      refine ⟨.timeOut, { l with phase := .woken deadline true }, .inr rfl, ?_, by simp [Sleeps]⟩
      simp only [Loop.act, hp]
      exact if_pos (Nat.le_trans hnear hle)

/-- Whatever callers do while the loop plans, sleeps, wakes and hands out events: as long as it
sleeps towards an instant, no armed event has an earlier deadline, or a flag is up and its
notification is still to come; and as long as it sleeps without one, nothing is armed and the timer
goes on, or a notification is still to come. So no deadline and no stop passes with the loop asleep
and nothing to wake it. -/
theorem sleeps_past_no_deadline (now : Instant) (acts : List (Act α))
    (hacts : ∀ a ∈ acts, a.Bounded) (hr : (start now).run acts = some l)
    (hn : l.now + longestTimeout ≤ Instant.latest) :
    (∀ e ∈ l.timer.events, e.deadline = e.due) ∧
    (∀ deadline, l.phase = .asleep deadline → l.awaiting = some deadline ∧
      ((∀ e ∈ l.timer.events, deadline ≤ e.deadline) ∨ (l.fallThrough = true ∧ 0 < l.notices)) ∧
      (l.timer.stopped = true → 0 < l.notices)) ∧
    (l.phase = .idle → (l.timer.events = [] ∧ l.timer.stopped = false) ∨ 0 < l.notices) ∧
    (l.Sleeps → (l.timer.stopped = true ∨ ∃ e ∈ l.timer.events, e.deadline ≤ l.now) →
      ∃ wake l', (wake = .notify ∨ wake = .timeOut) ∧ l.act wake = some l' ∧ ¬l'.Sleeps) := by
  have hl := (vigilant_start now).run hacts hr hn
  refine ⟨fun e he => (hl.timely e he).deadline_eq hn, ?_, ?_, hl.wakes⟩
  · intro deadline hp
    have ht : target? l.phase = some deadline := by rw [hp]; rfl
    refine ⟨hl.awaiting.trans ht, ?_, fun hs => hl.posted deadline hp (.inr hs)⟩
    cases hf : l.fallThrough with
    | true => exact .inr ⟨rfl, hl.posted deadline hp (.inl hf)⟩
    | false => exact .inl (hl.nearest deadline ht hf)
  · intro hp
    by_cases h : l.timer.events ≠ [] ∨ l.timer.stopped = true
    · exact .inr (hl.idle hp h)
    · simp only [not_or, not_not, Bool.not_eq_true] at h
      exact .inl h

/-- The loop sleeps towards an event in five seconds when one in a second is made, and is armed half
a second later. -/
def undercut : List (Act String) :=
  [.make (.ofSecs 5) false "late", .arm 0, .notify, .plan, .make (.ofSecs 1) true "soon",
    .tick (.ofMillis 500), .arm 0]

theorem sleeps_past_no_deadline_undercut :
    ∃ l, (start 7).run undercut = some l ∧ l.phase = .asleep (7 + Span.ofSecs 5) ∧
      l.timer.events.map (·.deadline) = [7 + Span.ofSecs 1, 7 + Span.ofSecs 5] ∧
      l.fallThrough = true ∧ 0 < l.notices := by
  obtain ⟨l, hr, hp, hnow, hevents⟩ : ∃ l, (start 7).run undercut = some l ∧
      l.phase = .asleep (7 + Span.ofSecs 5) ∧
      l.now = 7 + Span.ofMillis 500 ∧
        l.timer.events.map (·.deadline) = [7 + Span.ofSecs 1, 7 + Span.ofSecs 5] :=
    ⟨_, rfl, rfl, rfl, rfl⟩
  have hacts : ∀ a ∈ undercut, a.Bounded := by
    simp [undercut, Act.Bounded, longestTimeout, Span.ofMillis, Span.ofSecs]
  obtain ⟨-, hasleep, -⟩ := sleeps_past_no_deadline 7 undercut hacts hr (by rw [hnow]; decide)
  obtain ⟨-, hnear | hflag, -⟩ := hasleep _ hp
  · have hmem : 7 + Span.ofSecs 1 ∈ l.timer.events.map (·.deadline) := hevents ▸ List.mem_cons_self
    obtain ⟨e, he, hd⟩ := List.mem_map.mp hmem
    exact absurd (hd ▸ hnear e he) (by decide)
  · exact ⟨l, hr, hp, hevents, hflag⟩

end Loop

end SessionDispatch.Timer
