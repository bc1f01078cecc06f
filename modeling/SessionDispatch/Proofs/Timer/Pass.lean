import Mathlib
import SessionDispatch.Timer

/-!
# What one call does to the armed events

The remaining time of an event changes at every pass, but the instant at which it is used up does
not: `due` is fixed when the event is armed, or armed anew. A pass hands out exactly the events that
are due. The statements here say, for each call of a timer, which events are armed after it.
-/

namespace SessionDispatch.Timer

variable {α : Type}

namespace Event

/-- The instant at which nothing remains. Unlike the deadline it does not depend on the end of
the clock. -/
def due (e : Event α) : Instant := e.checkpoint + e.remaining

@[simp] theorem advance_id (e : Event α) (now : Instant) : (e.advance now).2.id = e.id := by
  unfold advance
  dsimp only
  split <;> rfl

@[simp] theorem advance_action (e : Event α) (now : Instant) :
    (e.advance now).2.action = e.action := by
  unfold advance
  dsimp only
  split <;> rfl

@[simp] theorem advance_repeats (e : Event α) (now : Instant) :
    (e.advance now).2.repeats = e.repeats := by
  unfold advance
  dsimp only
  split <;> rfl

@[simp] theorem advance_timeout (e : Event α) (now : Instant) :
    (e.advance now).2.timeout = e.timeout := by
  unfold advance
  dsimp only
  split <;> rfl

@[simp] theorem advance_checkpoint (e : Event α) (now : Instant) :
    (e.advance now).2.checkpoint = now := by
  unfold advance
  dsimp only
  split <;> rfl

/-- A deadline that the clock can show is the instant of falling due. -/
theorem deadline_eq_due {e : Event α} (h : e.due ≤ Instant.latest) : e.deadline = e.due := by
  unfold due at *
  simp [deadline, Instant.after?, h]

/-- However the elapsed time was charged, an event falls due at its fixed instant. -/
theorem advance_fires_iff {e : Event α} {now : Instant} (h : e.checkpoint ≤ now) :
    (e.advance now).1 = true ↔ e.due ≤ now := by
  unfold advance due
  dsimp only
  split_ifs <;> simp <;> lia

/-- Before its time an event is only brought up to date. -/
theorem advance_of_early {e : Event α} {now : Instant} (h : e.checkpoint ≤ now) (hd : now < e.due) :
    (e.advance now).2 =
    { e with remaining := e.remaining - (now - e.checkpoint), checkpoint := now } := by
  unfold due at hd
  have hr : e.remaining - (now - e.checkpoint) ≠ 0 := by lia
  unfold advance
  dsimp only
  rw [if_neg hr]

/-- A repeating event that is handed out starts anew, and counts it. -/
theorem advance_of_due {e : Event α} {now : Instant} (h : e.checkpoint ≤ now) (hd : e.due ≤ now) :
    (e.advance now).2 = { e with
      remaining := if e.repeats then e.timeout else 0
      checkpoint := now
      fired := min (e.fired + 1) (UInt32.size - 1) } := by
  unfold due at hd
  have hr : e.remaining - (now - e.checkpoint) = 0 := by lia
  unfold advance
  dsimp only
  rw [if_pos hr]

/-- No more remains than before, or than the period that starts anew. -/
theorem advance_remaining_le {e : Event α} {limit : Span} (ht : e.timeout ≤ limit)
    (hr : e.remaining ≤ limit) (now : Instant) : (e.advance now).2.remaining ≤ limit := by
  unfold advance
  dsimp only
  split_ifs
  · exact ht
  · exact Nat.zero_le _
  · exact Nat.le_trans (Nat.sub_le _ _) hr

/-- The same event, at most brought up to date. -/
structure Same (x e : Event α) : Prop where
  id : x.id = e.id
  timeout : x.timeout = e.timeout
  repeats : x.repeats = e.repeats
  fired : x.fired = e.fired
  action : x.action = e.action
  due : x.due = e.due

theorem Same.refl (e : Event α) : e.Same e := by constructor <;> rfl

theorem Same.trans {x y z : Event α} (h : x.Same y) (h' : y.Same z) : x.Same z where
  id := h.id.trans h'.id
  timeout := h.timeout.trans h'.timeout
  repeats := h.repeats.trans h'.repeats
  fired := h.fired.trans h'.fired
  action := h.action.trans h'.action
  due := h.due.trans h'.due

theorem same_advance {e : Event α} {now : Instant} (h : e.checkpoint ≤ now) (hd : now < e.due) :
    (e.advance now).2.Same e := by
  rw [advance_of_early h hd]
  constructor
  case due =>
    unfold Event.due at *
    dsimp only
    lia
  all_goals rfl

theorem due_advance {e : Event α} {now : Instant} (h : e.checkpoint ≤ now) (hd : now < e.due) :
    (e.advance now).2.due = e.due := (same_advance h hd).due

theorem isSpent_eq_false_iff {e : Event α} :
    e.isSpent = false ↔ (e.repeats = false → e.fired = 0) := by
  cases h : e.repeats <;> simp [isSpent, h]

/-- A one-shot event is spent by the pass that hands it out, a repeating event by none. -/
theorem isSpent_advance {e : Event α} (now : Instant) (h : e.isSpent = false) :
    (e.advance now).2.isSpent = (!e.repeats && (e.advance now).1) := by
  rw [isSpent_eq_false_iff] at h
  unfold advance isSpent
  dsimp only
  split
  · have hm : 0 < min (e.fired + 1) (UInt32.size - 1) := Nat.lt_min.mpr ⟨by omega, by decide⟩
    rw [decide_eq_true hm]
  · cases hr : e.repeats
    · simp [h hr]
    · simp

/-- A pass keeps the events that it does not hand out and those that repeat. -/
theorem isSpent_advance_eq_false_iff {e : Event α} {now : Instant} (hc : e.checkpoint ≤ now)
    (h : e.isSpent = false) :
    (e.advance now).2.isSpent = false ↔ e.repeats = true ∨ now < e.due := by
  have hd := advance_fires_iff hc
  rw [isSpent_advance now h, Bool.and_eq_false_iff, Bool.not_eq_false', ← Bool.not_eq_true, hd,
    Nat.not_le]

end Event

/-- What every call keeps: no number stands twice or is still to come, no event was brought up to
date in the future, and no one-shot event stays after it was handed out. -/
structure Valid (t : Timer α) (now : Instant) : Prop where
  nodup : (t.events.map (·.id)).Nodup
  id_lt : ∀ e ∈ t.events, e.id < t.nextId
  checkpoint_le : ∀ e ∈ t.events, e.checkpoint ≤ now
  unspent : ∀ e ∈ t.events, e.isSpent = false

theorem isScheduled_iff {t : Timer α} {id : Nat} :
    t.isScheduled id = true ↔ ∃ e ∈ t.events, e.id = id := by
  simp [isScheduled]

theorem valid_new (now : Instant) : ({} : Timer α).Valid now :=
  ⟨List.nodup_nil, by simp, by simp, by simp⟩

/-- A pass leaves no events but those it found, brought up to date. -/
theorem exists_of_mem_pass {t : Timer α} {now : Instant} {x : Event α}
    (hx : x ∈ (t.pass now).2.events) :
    ∃ e ∈ t.events, (e.advance now).2 = x := by
  have hleft := (List.mergeSort_perm _ _).mem_iff.mp hx
  obtain ⟨r, hr, rfl⟩ := List.mem_map.mp (List.mem_filter.mp hleft).1
  obtain ⟨e, he, rfl⟩ := List.mem_map.mp hr
  exact ⟨e, he, rfl⟩

theorem checkpoint_pass {t : Timer α} {now : Instant} {x : Event α}
    (hx : x ∈ (t.pass now).2.events) :
    x.checkpoint = now := by
  obtain ⟨e, -, rfl⟩ := exists_of_mem_pass hx
  exact Event.advance_checkpoint e now

/-! ## The place of a new event -/

/-- A binary search closes in on the end of the elements with a property, if they stand before
all others. -/
theorem narrow_spec {p : Nat → Bool} {last : Nat} (hp : ∀ i, p i = true ↔ i < last)
    {limit base size : Nat} (hbase : base = 0 ∨ base < last) (hlast : last ≤ base + size)
    (hlimit : size ≤ limit + 1) :
    (narrow p limit base size = 0 ∨ narrow p limit base size < last) ∧
    last ≤ narrow p limit base size + 1 := by
  induction limit generalizing base size with
  | zero => exact ⟨hbase, by rw [narrow]; omega⟩
  | succ limit ih =>
      rw [narrow]
      split_ifs with hsize hmid
      · exact ⟨hbase, by omega⟩
      · exact ih (.inr ((hp _).mp hmid)) (by omega) (by omega)
      · rw [hp, Nat.not_lt] at hmid
        exact ih hbase (by omega) (by omega)

theorem partitionPoint_append {β : Type} {p : β → Bool} {front back : List β}
    (hfront : ∀ x ∈ front, p x = true) (hback : ∀ x ∈ back, p x = false) :
    partitionPoint p (front ++ back) = front.length := by
  have hp : ∀ i, (front ++ back)[i]?.any p = true ↔ i < front.length := by
    intro i
    by_cases hi : i < front.length
    · rw [List.getElem?_append_left hi, List.getElem?_eq_getElem hi]
      simpa [hi] using hfront _ (List.getElem_mem hi)
    · rw [List.getElem?_append_right (Nat.le_of_not_lt hi)]
      cases hb : back[i - front.length]? with
      | none => simp [hi]
      | some x => simp [hi, hback x (List.mem_of_getElem? hb)]
  have hlast : front.length ≤ 0 + (front ++ back).length := by simp
  obtain ⟨hbase, hle⟩ := narrow_spec hp (.inl rfl) hlast (Nat.le_succ _)
  unfold partitionPoint
  dsimp only
  split_ifs with h
  · have hlt := (hp _).mp h
    omega
  · rw [hp] at h
    omega

theorem insert_append {front back : List (Event α)} {e : Event α}
    (hfront : ∀ x ∈ front, x.deadline ≤ e.deadline) (hback : ∀ x ∈ back, e.deadline < x.deadline) :
    insert (front ++ back) e = front ++ e :: back := by
  have hplace : partitionPoint (·.deadline ≤ e.deadline) (front ++ back) = front.length :=
    partitionPoint_append (fun x hx => decide_eq_true (hfront x hx))
      fun x hx => decide_eq_false (Nat.not_le.mpr (hback x hx))
  unfold insert
  dsimp only
  rw [hplace, List.take_left, List.drop_left]

/-- In a list in the order of the deadlines there is one place for an event. -/
theorem exists_insert {events : List (Event α)}
    (hs : events.Pairwise fun x y => x.deadline ≤ y.deadline) (e : Event α) :
    ∃ front back, events = front ++ back ∧ (∀ x ∈ front, x.deadline ≤ e.deadline) ∧
      (∀ x ∈ back, e.deadline < x.deadline) ∧ insert events e = front ++ e :: back := by
  obtain ⟨front, back, rfl, hfront, hback⟩ : ∃ front back, events = front ++ back ∧
      (∀ x ∈ front, x.deadline ≤ e.deadline) ∧ ∀ x ∈ back, e.deadline < x.deadline := by
    induction events with
    | nil => exact ⟨[], [], rfl, nofun, nofun⟩
    | cons x events ih =>
        obtain ⟨hx, hs⟩ := List.pairwise_cons.mp hs
        by_cases h : x.deadline ≤ e.deadline
        · obtain ⟨front, back, rfl, hfront, hback⟩ := ih hs
          exact ⟨x :: front, back, rfl, List.forall_mem_cons.mpr ⟨h, hfront⟩, hback⟩
        · have hlt := Nat.lt_of_not_le h
          refine ⟨[], x :: events, rfl, nofun, List.forall_mem_cons.mpr ⟨hlt, ?_⟩⟩
          exact fun y hy => Nat.lt_of_lt_of_le hlt (hx y hy)
  exact ⟨front, back, rfl, hfront, hback, insert_append hfront hback⟩

/-- An order that follows the deadlines is kept by the place that an event gets in the list. -/
theorem pairwise_insert {R : Event α → Event α → Prop} {events : List (Event α)} {e : Event α}
    (hs : events.Pairwise fun x y => x.deadline ≤ y.deadline ∧ R x y)
    (hbehind : ∀ x ∈ events, x.deadline ≤ e.deadline → R x e)
    (hbefore : ∀ x ∈ events, e.deadline < x.deadline → R e x) : (insert events e).Pairwise R := by
  obtain ⟨front, back, rfl, hfront, hback, hinsert⟩ := exists_insert (hs.imp And.left) e
  obtain ⟨hf, hb, hcross⟩ := List.pairwise_append.mp (hs.imp And.right)
  rw [hinsert]
  apply List.pairwise_append.mpr
  refine ⟨hf, List.pairwise_cons.mpr ⟨?_, hb⟩, ?_⟩
  · exact fun y hy => hbefore y (List.mem_append_right front hy) (hback y hy)
  · intro x hx
    rw [List.forall_mem_cons]
    exact ⟨hbehind x (List.mem_append_left back hx) (hfront x hx), hcross x hx⟩

/-! ## Arming -/

section Schedule

variable (t : Timer α) (now : Instant) (timeout : Span) (repeats : Bool) (action : α)

theorem mem_schedule {e : Event α} :
    e ∈ (t.schedule now timeout repeats action).2.events ↔
      e = .arm t.nextId now timeout repeats action ∨ e ∈ t.events := mem_insert

theorem schedule_perm :
    (t.schedule now timeout repeats action).2.events.Perm
      (.arm t.nextId now timeout repeats action :: t.events) := by
  unfold schedule insert
  refine List.perm_middle.trans (List.Perm.cons _ ?_)
  rw [List.take_append_drop]

theorem isSpent_arm (id : Nat) : (Event.arm id now timeout repeats action).isSpent = false := by
  simp [Event.isSpent, Event.arm]

variable {t now}

theorem Valid.schedule (v : t.Valid now) :
    (t.schedule now timeout repeats action).2.Valid now where
  nodup := by
    rw [((schedule_perm t now timeout repeats action).map _).nodup_iff, List.map_cons,
      List.nodup_cons]
    refine ⟨?_, v.nodup⟩
    intro hm
    obtain ⟨e, he, hid⟩ := List.mem_map.mp hm
    exact absurd (v.id_lt e he) (by simp [hid, Event.arm])
  id_lt := by
    intro e he
    rcases (mem_schedule t now timeout repeats action).mp he with rfl | he
    · exact Nat.lt_succ_self _
    · exact Nat.lt_succ_of_lt (v.id_lt e he)
  checkpoint_le := by
    intro e he
    rcases (mem_schedule t now timeout repeats action).mp he with rfl | he
    · exact Nat.le_refl _
    · exact v.checkpoint_le e he
  unspent := by
    intro e he
    rcases (mem_schedule t now timeout repeats action).mp he with rfl | he
    · exact isSpent_arm now timeout repeats action _
    · exact v.unspent e he

end Schedule

namespace Valid

variable {t : Timer α} {now : Instant}

theorem mono (v : t.Valid now) {later : Instant} (h : now ≤ later) : t.Valid later :=
  ⟨v.nodup, v.id_lt, fun e he => Nat.le_trans (v.checkpoint_le e he) h, v.unspent⟩

/-- Under a number there is at most one event. -/
theorem eq_of_id (v : t.Valid now) {e x : Event α} (he : e ∈ t.events) (hx : x ∈ t.events)
    (h : e.id = x.id) : e = x :=
  List.inj_on_of_nodup_map v.nodup he hx h

theorem filter_id (v : t.Valid now) {e : Event α} (he : e ∈ t.events) :
    t.events.filter (·.id = e.id) = [e] := by
  obtain ⟨l, r, hlr⟩ := List.append_of_mem he
  have hn := v.nodup
  simp only [hlr, List.map_append, List.map_cons, List.nodup_append, List.nodup_cons] at hn
  obtain ⟨-, ⟨hr, -⟩, hl⟩ := hn
  have hl' : l.filter (·.id = e.id) = [] := by
    rw [List.filter_eq_nil_iff]
    intro x hx
    simpa using hl x.id (List.mem_map_of_mem hx) e.id List.mem_cons_self
  have hr' : r.filter (·.id = e.id) = [] := by
    rw [List.filter_eq_nil_iff]
    intro x hx
    have := fun h : x.id = e.id => hr (h ▸ List.mem_map_of_mem hx)
    simpa using this
  rw [hlr, List.filter_append, List.filter_cons, hl', hr']
  simp

theorem firedCount? (v : t.Valid now) {e : Event α} (he : e ∈ t.events) :
    t.firedCount? e.id = some e.fired := by
  rw [Timer.firedCount?, ← List.head?_filter, v.filter_id he]
  rfl

/-! ## Disarming -/

theorem cancel_events (v : t.Valid now) (id : Nat) :
    (t.cancel id).2.events = t.events.filter (·.id ≠ id) := by
  have hn := v.nodup
  unfold Timer.cancel
  dsimp only
  generalize t.events = events at hn
  induction events with
  | nil => rfl
  | cons e events ih =>
      simp only [List.map_cons, List.nodup_cons] at hn
      by_cases h : e.id = id
      · subst h
        have hr : ∀ x ∈ events, decide (x.id ≠ e.id) = true := by
          intro x hx
          have := fun h : x.id = e.id => hn.1 (h ▸ List.mem_map_of_mem hx)
          simpa using this
        rw [List.eraseP_cons_of_pos (by simp), List.filter_cons_of_neg (by simp),
          List.filter_eq_self.mpr hr]
      · rw [List.eraseP_cons_of_neg (by simpa using h), List.filter_cons_of_pos (by simpa using h),
          ih hn.2]

theorem mem_cancel (v : t.Valid now) {id : Nat} {e : Event α} :
    e ∈ (t.cancel id).2.events ↔ e ∈ t.events ∧ e.id ≠ id := by
  rw [v.cancel_events]
  simp

theorem isScheduled_cancel (v : t.Valid now) {id i : Nat} :
    (t.cancel id).2.isScheduled i = true ↔ i ≠ id ∧ t.isScheduled i = true := by
  rw [isScheduled_iff, isScheduled_iff]
  constructor
  · rintro ⟨e, he, rfl⟩
    exact ⟨(v.mem_cancel.mp he).2, e, (v.mem_cancel.mp he).1, rfl⟩
  · rintro ⟨hi, e, he, rfl⟩
    exact ⟨e, v.mem_cancel.mpr ⟨he, hi⟩, rfl⟩

theorem cancel (v : t.Valid now) (id : Nat) : (t.cancel id).2.Valid now where
  nodup := by
    rw [v.cancel_events]
    exact v.nodup.sublist (List.filter_sublist.map _)
  id_lt := fun e he => v.id_lt e (v.mem_cancel.mp he).1
  checkpoint_le := fun e he => v.checkpoint_le e (v.mem_cancel.mp he).1
  unspent := fun e he => v.unspent e (v.mem_cancel.mp he).1

/-! ## Passes -/

/-- A pass hands out the events that are due, in list order. -/
theorem pass_due (v : t.Valid now) :
    (t.pass now).1 = (t.events.filter (·.due ≤ now)).map fun e => (e.advance now).2 := by
  have hf : t.events.filter (·.due ≤ now) = t.events.filter fun e => (e.advance now).1 := by
    refine List.filter_congr fun e he => ?_
    rw [Bool.eq_iff_iff, Event.advance_fires_iff (v.checkpoint_le e he), decide_eq_true_iff]
  rw [hf]
  simp [Timer.pass, List.filter_map, Function.comp_def]

/-- A pass leaves the events that are not due and those that start anew. -/
theorem pass_left_perm (v : t.Valid now) :
    (t.pass now).2.events.Perm
      ((t.events.filter fun e => e.repeats || now < e.due).map fun e => (e.advance now).2) := by
  refine (List.mergeSort_perm _ _).trans (List.Perm.of_eq ?_)
  rw [List.map_map, List.filter_map]
  refine congrArg _ (List.filter_congr fun e he => ?_)
  have hs := Event.isSpent_advance_eq_false_iff (v.checkpoint_le e he) (v.unspent e he)
  rw [Bool.eq_iff_iff]
  simpa using hs

theorem mem_due (v : t.Valid now) {x : Event α} :
    x ∈ (t.pass now).1 ↔ ∃ e ∈ t.events, e.due ≤ now ∧ (e.advance now).2 = x := by
  rw [v.pass_due]
  simp [and_assoc]

theorem mem_left (v : t.Valid now) {x : Event α} :
    x ∈ (t.pass now).2.events ↔
      ∃ e ∈ t.events, (e.repeats = true ∨ now < e.due) ∧ (e.advance now).2 = x := by
  rw [v.pass_left_perm.mem_iff]
  simp [and_assoc]

theorem pass (v : t.Valid now) : (t.pass now).2.Valid now where
  nodup := by
    rw [(v.pass_left_perm.map _).nodup_iff, List.map_map]
    simp only [Function.comp_def, Event.advance_id]
    exact v.nodup.sublist (List.filter_sublist.map _)
  id_lt := by
    intro x hx
    obtain ⟨e, he, -, rfl⟩ := v.mem_left.mp hx
    exact Event.advance_id e now ▸ v.id_lt e he
  checkpoint_le := by
    intro x hx
    obtain ⟨e, -, -, rfl⟩ := v.mem_left.mp hx
    exact Nat.le_of_eq (Event.advance_checkpoint e now)
  unspent := by
    intro x hx
    obtain ⟨e, he, h, rfl⟩ := v.mem_left.mp hx
    exact (Event.isSpent_advance_eq_false_iff (v.checkpoint_le e he) (v.unspent e he)).mpr h

/-- What one-shot events are armed for is either handed out or stays. -/
theorem pass_actions_perm (v : t.Valid now) (h : ∀ e ∈ t.events, e.repeats = false) :
    ((t.pass now).2.events.map (·.action) ++ (t.pass now).1.map (·.action)).Perm
      (t.events.map (·.action)) := by
  have hl : (t.events.filter fun e => e.repeats || now < e.due) =
      t.events.filter fun e => !decide (e.due ≤ now) := by
    refine List.filter_congr fun e he => ?_
    rw [h e he, Bool.false_or, ← decide_not]
    exact decide_eq_decide.mpr Nat.not_le.symm
  have hp := v.pass_left_perm.map (·.action)
  simp only [hl, List.map_map, Function.comp_def, Event.advance_action] at hp
  rw [v.pass_due, List.map_map]
  simp only [Function.comp_def, Event.advance_action]
  refine (hp.append_right _).trans (List.perm_append_comm.trans ?_)
  rw [← List.map_append]
  exact (List.filter_append_perm _ _).map _

/-- A pass takes from the list the one-shot events that it hands out. -/
theorem pending_pass (v : t.Valid now) :
    (t.pass now).2.pending + (t.pass now).1.countP (!·.repeats) = t.pending := by
  have hl : (t.pass now).2.pending = t.events.countP fun e => e.repeats || now < e.due := by
    rw [pending, v.pass_left_perm.length_eq, List.length_map, List.countP_eq_length_filter]
  have hd : (t.pass now).1.countP (!·.repeats) =
      t.events.countP fun e => !(e.repeats || now < e.due) := by
    rw [v.pass_due, List.countP_map, List.countP_filter]
    refine List.countP_congr fun e _ => ?_
    simp
  have hs := List.length_eq_countP_add_countP (l := t.events) fun e => e.repeats || now < e.due
  simp only [Bool.not_eq_true, Bool.decide_eq_false] at hs
  rw [hl, hd, pending, hs]

end Valid

theorem pending_cancel (t : Timer α) (id : Nat) :
    (t.cancel id).2.pending + (if (t.cancel id).1 then 1 else 0) = t.pending := by
  unfold cancel pending
  dsimp only
  split
  case isTrue h =>
    obtain ⟨e, he, hid⟩ := isScheduled_iff.mp h
    have hl := List.length_eraseP_of_mem he (p := (·.id = id)) (by simpa using hid)
    have := List.length_pos_of_mem he
    omega
  case isFalse h =>
    rw [List.eraseP_of_forall_not]
    · rfl
    · intro e he hid
      exact h (isScheduled_iff.mpr ⟨e, he, by simpa using hid⟩)

/-- A call that finds nothing to disarm changes nothing. -/
theorem cancel_of_not_scheduled {t : Timer α} {id : Nat} (h : t.isScheduled id = false) :
    (t.cancel id).2 = t := by
  have he : t.events.eraseP (·.id = id) = t.events := by
    refine List.eraseP_of_forall_not fun e he => ?_
    intro h'
    exact Bool.false_ne_true (h ▸ isScheduled_iff.mpr ⟨e, he, by simpa using h'⟩)
  unfold cancel
  rw [he]

end SessionDispatch.Timer
