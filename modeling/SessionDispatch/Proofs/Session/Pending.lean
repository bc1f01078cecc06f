import Mathlib.Data.List.Perm.Basic
import SessionDispatch.Proofs.Session.Sessions

/-!
# Expiries that are still to come

Sessions, timer events and expiries that were handed out belong together: every expiry names a
session that was made and a generation that the session has reached, and the event that a session
holds is its newest. While nothing is lost, a session of the table that was armed has exactly one
expiry of its newest generation still to come. Each operation keeps this, in whatever order
operations follow one another.
-/

namespace SessionDispatch.SessionManager

/-- Expiries that are armed, and those that were handed out and not carried out. -/
def toCome (timer : Timer Expiry) (flying : List Expiry) : List Expiry :=
  timer.events.map (·.action) ++ flying

section

variable (family : Family) (table : Table PeerKey Nat) (sessions : List Session)
variable (timer : Timer Expiry)
  (flying : List Expiry)

/-- How sessions and expiries belong together at all times. -/
structure Tracked : Prop where
  entry : ∀ k id, table.find? k = some id → ∃ x, sessions[id]? = some x ∧ x.key = k
  oneShot : ∀ e ∈ timer.events, e.repeats = false
  known : ∀ e ∈ toCome timer flying, e.family = family ∧ 1 ≤ e.generation ∧
    ∃ x, sessions[e.session]? = some x ∧ e.generation ≤ x.generation
  newest : ∀ id x n, sessions[id]? = some x → x.event = some n → n < timer.nextId ∧
    ∀ e ∈ timer.events, e.id = n → e.action.session = id

/-- Every armed session of the table has one expiry of its newest generation to come. -/
def Covered : Prop :=
  ∀ k id x, table.find? k = some id → sessions[id]? = some x → 1 ≤ x.generation →
    (toCome timer flying).count ⟨family, id, x.generation⟩ = 1

end

variable {family : Family} {table : Table PeerKey Nat} {sessions : List Session}
variable {timer : Timer Expiry}
  {flying : List Expiry} {now : Instant}

theorem tracked_new : Tracked family .empty [] {} [] :=
  ⟨by simp, by simp, by simp [toCome], by simp⟩

theorem covered_new : Covered family .empty [] {} [] := by
  intro k id x h
  simp at h

/-! ## Routing -/

theorem getElem?_concat_of_some {x y : Session} {id : Nat} (h : sessions[id]? = some x) :
    (sessions ++ [y])[id]? = some x := by
  rw [List.getElem?_append_left (List.getElem?_eq_some_iff.mp h).choose, h]

namespace Tracked

theorem route (t : Tracked family table sessions timer flying) {k : PeerKey} {y : Session}
    (hk : y.key = k) (hy : y.event = none) :
    Tracked family (table.insert k sessions.length) (sessions ++ [y]) timer flying where
  entry := by
    intro j id hj
    rw [Table.find?_insert] at hj
    split_ifs at hj with h
    · cases hj
      exact ⟨y, by simp, hk.trans h.symm⟩
    · obtain ⟨x, hx, hxk⟩ := t.entry j id hj
      exact ⟨x, getElem?_concat_of_some hx, hxk⟩
  oneShot := t.oneShot
  known := by
    intro e he
    obtain ⟨hf, hg, x, hx, hxg⟩ := t.known e he
    exact ⟨hf, hg, x, getElem?_concat_of_some hx, hxg⟩
  newest := by
    intro id x n hx hn
    rw [List.getElem?_append] at hx
    split_ifs at hx with h
    · exact t.newest id x n hx hn
    · obtain rfl : x = y := by simpa using List.mem_of_getElem? hx
      rw [hy] at hn
      cases hn

end Tracked

theorem Covered.route (c : Covered family table sessions timer flying)
    (t : Tracked family table sessions timer flying) {k : PeerKey} {y : Session}
    (hy : y.generation = 0) :
    Covered family (table.insert k sessions.length) (sessions ++ [y]) timer flying := by
  intro j id x hj hx hg
  rw [Table.find?_insert] at hj
  split_ifs at hj with h
  · cases hj
    obtain rfl : y = x := by simpa using hx
    omega
  · obtain ⟨x', hx', -⟩ := t.entry j id hj
    obtain rfl : x' = x := Option.some.inj ((getElem?_concat_of_some hx').symm.trans hx)
    exact c j id x' hj hx' hg

/-! ## Arming -/

theorem mem_withdraw (v : timer.Valid now) {event : Option Nat} {e : Timer.Event Expiry} :
    e ∈ (withdraw timer event).events ↔ e ∈ timer.events ∧ event ≠ some e.id := by
  cases event with
  | none => simp [withdraw]
  | some n => simp [withdraw, v.mem_cancel, eq_comm]

theorem withdraw_nextId (timer : Timer Expiry) (event : Option Nat) :
    (withdraw timer event).nextId = timer.nextId := by
  cases event <;> rfl

theorem withdraw_valid (v : timer.Valid now) (event : Option Nat) :
    (withdraw timer event).Valid now := by
  cases event with
  | none => exact v
  | some n => exact v.cancel n

theorem withdraw_perm (v : timer.Valid now) (event : Option Nat) :
    (withdraw timer event).events.Perm (timer.events.filter fun e => event ≠ some e.id) := by
  cases event with
  | none => simp [withdraw]
  | some n =>
      rw [withdraw, v.cancel_events]
      refine List.Perm.of_eq (List.filter_congr fun e _ => ?_)
      simp [eq_comm]

/-- Withdrawing an event leaves what other events are armed for. -/
theorem count_withdraw (v : timer.Valid now) {event : Option Nat} {a : Expiry}
    (h : ∀ e ∈ timer.events, e.action = a → event ≠ some e.id) :
    ((withdraw timer event).events.map (·.action)).count a =
    (timer.events.map (·.action)).count a := by
  rw [((withdraw_perm v event).map _).count_eq, List.count_eq_countP, List.count_eq_countP,
    List.countP_map, List.countP_map, List.countP_filter]
  refine List.countP_congr fun e he => ?_
  simp only [Function.comp_apply, beq_iff_eq, Bool.and_eq_true, decide_eq_true_eq]
  exact ⟨And.left, fun ha => ⟨ha, h e he ha⟩⟩

/-- What an event is armed for, if it is armed at all, the session has been armed anew since. -/
def Superseded (sessions : List Session) (timer : Timer Expiry) (n : Nat) : Prop :=
  n < timer.nextId ∧ ∀ e ∈ timer.events, e.id = n →
    ∃ x, sessions[e.action.session]? = some x ∧ e.action.generation < x.generation

/-- Later events have other numbers, and generations only rise. -/
theorem Superseded.mono {sessions' : List Session} {timer' : Timer Expiry} {n : Nat}
    (h : Superseded sessions timer n) (hnext : timer.nextId ≤ timer'.nextId)
    (hx : ∀ (id : Nat) (x : Session), sessions[id]? = some x →
      ∃ y : Session, sessions'[id]? = some y ∧ x.generation ≤ y.generation)
    (he : ∀ e' ∈ timer'.events, e'.id < timer.nextId →
      ∃ e ∈ timer.events, e.id = e'.id ∧ e.action = e'.action) : Superseded sessions' timer' n := by
  refine ⟨Nat.lt_of_lt_of_le h.1 hnext, ?_⟩
  intro e' he' hid
  obtain ⟨e, hm, hid', ha⟩ := he e' he' (hid ▸ h.1)
  obtain ⟨x, hs, hg⟩ := h.2 e hm (hid'.trans hid)
  obtain ⟨y, hy, hle⟩ := hx _ x hs
  rw [ha] at hy hg
  exact ⟨y, hy, Nat.lt_of_lt_of_le hg hle⟩

theorem Superseded.route {y : Session} {n : Nat} (h : Superseded sessions timer n) :
    Superseded (sessions ++ [y]) timer n :=
  h.mono (Nat.le_refl _) (fun _ x hx => ⟨x, getElem?_concat_of_some hx, Nat.le_refl _⟩)
    fun e he _ => ⟨e, he, rfl, rfl⟩

section Withdraw

variable (v : timer.Valid now) (event : Option Nat)
include v

theorem Tracked.withdraw (t : Tracked family table sessions timer flying) :
    Tracked family table sessions (withdraw timer event) flying where
  entry := t.entry
  oneShot := fun e he => t.oneShot e ((mem_withdraw v).mp he).1
  known := by
    intro a ha
    refine t.known a ?_
    rcases List.mem_append.mp ha with ha | ha
    · obtain ⟨e, he, rfl⟩ := List.mem_map.mp ha
      exact List.mem_append_left _ (List.mem_map_of_mem ((mem_withdraw v).mp he).1)
    · exact List.mem_append_right _ ha
  newest := by
    intro id x n hx hn
    obtain ⟨hlt, hev⟩ := t.newest id x n hx hn
    exact ⟨(withdraw_nextId timer event).symm ▸ hlt, fun e he => hev e ((mem_withdraw v).mp he).1⟩

/-- No session misses an event that was superseded. -/
theorem Covered.withdraw (c : Covered family table sessions timer flying)
    (hold : ∀ n, event = some n → Superseded sessions timer n) :
    Covered family table sessions (withdraw timer event) flying := by
  intro k id x hk hx hg
  have hother : ∀ e ∈ timer.events, e.action = ⟨family, id, x.generation⟩ → event ≠ some e.id := by
    intro e he ha hn
    obtain ⟨y, hy, hlt⟩ := (hold e.id hn).2 e he rfl
    rw [ha] at hy hlt
    obtain rfl : x = y := Option.some.inj (hx.symm.trans hy)
    exact Nat.lt_irrefl _ hlt
  have hc := c k id x hk hx hg
  rw [toCome, List.count_append] at hc ⊢
  rw [count_withdraw v hother]
  exact hc

theorem Superseded.withdraw {n : Nat} (h : Superseded sessions timer n) :
    Superseded sessions (withdraw timer event) n :=
  h.mono (Nat.le_of_eq (withdraw_nextId timer event).symm) (fun _ x hx => ⟨x, hx, Nat.le_refl _⟩)
    fun e he _ => ⟨e, ((mem_withdraw v).mp he).1, rfl, rfl⟩

end Withdraw

section Arm

variable {id : Nat} {x : Session} {timeout : Span}

def renewal (family : Family) (id : Nat) (x : Session) : Expiry := ⟨family, id, x.generation + 1⟩

/-- The timer when a session was armed anew and the event armed before is not cancelled yet. -/
def renewed (timer : Timer Expiry) (now : Instant) (timeout : Span) (family : Family) (id : Nat)
    (x : Session) : Timer Expiry := (timer.schedule now timeout false (renewal family id x)).2

def rearm (timer : Timer Expiry) (now : Instant) (timeout : Span) (family : Family) (id : Nat)
    (x : Session) : Timer Expiry := withdraw (renewed timer now timeout family id x) x.event

/-- The sessions after one of them was armed anew. -/
theorem getElem?_modify_renew (hx : sessions[id]? = some x) (j n : Nat) :
    (sessions.modify id fun x' => { x' with generation := x.generation + 1, event := some n })[j]? =
      if j = id then some { x with generation := x.generation + 1, event := some n }
      else sessions[j]? := by
  rw [List.getElem?_modify]
  by_cases h : id = j
  · subst h
    simp [hx]
  · simp [h, Ne.symm h]

/-- No session's generation falls. -/
theorem generation_le_modify_renew (hx : sessions[id]? = some x) (n : Nat) {j : Nat} {y : Session}
    (hy : sessions[j]? = some y) :
    ∃ z, (sessions.modify id fun x' =>
      { x' with generation := x.generation + 1, event := some n })[j]? = some z ∧
        y.generation ≤ z.generation := by
  rw [getElem?_modify_renew hx]
  split_ifs with h
  · rw [h] at hy
    obtain rfl : x = y := Option.some.inj (hx.symm.trans hy)
    exact ⟨_, rfl, Nat.le_succ _⟩
  · exact ⟨y, hy, Nat.le_refl _⟩

theorem mem_renewed {e : Timer.Event Expiry} :
    e ∈ (renewed timer now timeout family id x).events ↔
      e = .arm timer.nextId now timeout false (renewal family id x) ∨ e ∈ timer.events :=
  Timer.mem_schedule ..

theorem renewed_valid (v : timer.Valid now) : (renewed timer now timeout family id x).Valid now :=
  v.schedule ..

theorem mem_rearm (v : timer.Valid now) {e : Timer.Event Expiry} :
    e ∈ (rearm timer now timeout family id x).events ↔
      (e = .arm timer.nextId now timeout false (renewal family id x) ∨ e ∈ timer.events) ∧
        x.event ≠ some e.id := by
  rw [rearm, mem_withdraw (renewed_valid v), mem_renewed]

theorem rearm_valid (v : timer.Valid now) : (rearm timer now timeout family id x).Valid now :=
  withdraw_valid (renewed_valid v) _

/-- Arming adds one expiry to those that are to come. -/
theorem count_renewed (a : Expiry) :
    (toCome (renewed timer now timeout family id x) flying).count a =
      (toCome timer flying).count a + if a = renewal family id x then 1 else 0 := by
  rw [toCome, toCome, List.count_append, List.count_append, renewed,
    ((Timer.schedule_perm ..).map _).count_eq, List.map_cons, List.count_cons]
  simp only [Timer.Event.arm, beq_iff_eq, eq_comm (a := a)]
  omega

variable (t : Tracked family table sessions timer flying) (hx : sessions[id]? = some x)
include t hx

/-- Nothing of the next generation is to come. -/
theorem count_renewal : (toCome timer flying).count (renewal family id x) = 0 := by
  rw [List.count_eq_zero]
  intro hm
  obtain ⟨-, -, y, hy, hg⟩ := t.known _ hm
  obtain rfl : x = y := Option.some.inj (hx.symm.trans hy)
  exact Nat.not_succ_le_self _ hg

theorem Tracked.renew (v : timer.Valid now) :
    Tracked family table
      (sessions.modify id fun x' =>
        { x' with generation := x.generation + 1, event := some timer.nextId })
      (renewed timer now timeout family id x) flying where
  entry := by
    intro k j hj
    obtain ⟨y, hy, hk⟩ := t.entry k j hj
    rw [getElem?_modify_renew hx]
    split_ifs with h
    · subst h
      obtain rfl : x = y := Option.some.inj (hx.symm.trans hy)
      exact ⟨_, rfl, hk⟩
    · exact ⟨y, hy, hk⟩
  oneShot := by
    intro e he
    rcases mem_renewed.mp he with rfl | he
    · rfl
    · exact t.oneShot e he
  known := by
    have hold : ∀ a ∈ toCome timer flying, a.family = family ∧ 1 ≤ a.generation ∧
        ∃ y, (sessions.modify id fun x' => { x' with
          generation := x.generation + 1, event := some timer.nextId })[a.session]? = some y ∧
          a.generation ≤ y.generation := by
      intro a ha
      obtain ⟨hf, hg, y, hy, hle⟩ := t.known a ha
      obtain ⟨z, hz, hyz⟩ := generation_le_modify_renew hx timer.nextId hy
      exact ⟨hf, hg, z, hz, Nat.le_trans hle hyz⟩
    intro a ha
    rcases List.mem_append.mp ha with ha | ha
    · obtain ⟨e, he, rfl⟩ := List.mem_map.mp ha
      rcases mem_renewed.mp he with rfl | he
      · refine ⟨rfl, Nat.succ_pos _, _, (getElem?_modify_renew hx _ _).trans (if_pos rfl), ?_⟩
        exact Nat.le_refl _
      · exact hold _ (List.mem_append_left _ (List.mem_map_of_mem he))
    · exact hold a (List.mem_append_right _ ha)
  newest := by
    intro j y n hy hn
    rw [getElem?_modify_renew hx] at hy
    split_ifs at hy with h
    · cases hy
      cases hn
      refine ⟨Nat.lt_succ_self _, ?_⟩
      intro e he hid
      rcases mem_renewed.mp he with rfl | he
      · exact h.symm
      · exact absurd (v.id_lt e he) (hid ▸ Nat.lt_irrefl _)
    · obtain ⟨hlt, hev⟩ := t.newest j y n hy hn
      refine ⟨Nat.lt_succ_of_lt hlt, ?_⟩
      intro e he hid
      rcases mem_renewed.mp he with rfl | he
      · exact absurd hlt (hid ▸ Nat.lt_irrefl _)
      · exact hev e he hid

theorem Covered.renew (c : Covered family table sessions timer flying) :
    Covered family table
      (sessions.modify id fun x' =>
        { x' with generation := x.generation + 1, event := some timer.nextId })
      (renewed timer now timeout family id x) flying := by
  intro k j y hk hy hg
  rw [getElem?_modify_renew hx] at hy
  rw [count_renewed]
  split_ifs at hy with h
  · cases hy
    subst h
    change (toCome timer flying).count (renewal family j x) +
      (if renewal family j x = renewal family j x then 1 else 0) = 1
    rw [count_renewal t hx, if_pos rfl]
  · rw [c k j y hk hy hg, if_neg]
    intro he
    exact h (congrArg Expiry.session he)

/-- The event that the session was armed with before is superseded. -/
theorem superseded_renew {n : Nat} (hn : x.event = some n) :
    Superseded
      (sessions.modify id fun x' =>
        { x' with generation := x.generation + 1, event := some timer.nextId })
      (renewed timer now timeout family id x) n := by
  obtain ⟨hlt, hev⟩ := t.newest id x n hx hn
  refine ⟨Nat.lt_succ_of_lt hlt, ?_⟩
  intro e he hid
  rcases mem_renewed.mp he with rfl | he
  · exact absurd hlt (hid ▸ Nat.lt_irrefl _)
  · have hs := hev e he hid
    obtain ⟨-, -, y, hy, hle⟩ := t.known e.action (List.mem_append_left _ (List.mem_map_of_mem he))
    rw [hs] at hy ⊢
    obtain rfl : x = y := Option.some.inj (hx.symm.trans hy)
    exact ⟨_, (getElem?_modify_renew hx _ _).trans (if_pos rfl), Nat.lt_succ_of_le hle⟩

omit t in
theorem Superseded.renew {n : Nat} (h : Superseded sessions timer n) :
    Superseded
      (sessions.modify id fun x' =>
        { x' with generation := x.generation + 1, event := some timer.nextId })
      (renewed timer now timeout family id x) n := by
  refine h.mono (Nat.le_succ _) (fun j y hy => generation_le_modify_renew hx timer.nextId hy) ?_
  intro e he hid
  rcases mem_renewed.mp he with rfl | he
  · exact absurd hid (Nat.lt_irrefl _)
  · exact ⟨e, he, rfl, rfl⟩

theorem Tracked.arm (v : timer.Valid now) :
    Tracked family table
      (sessions.modify id fun x' =>
        { x' with generation := x.generation + 1, event := some timer.nextId })
      (rearm timer now timeout family id x) flying :=
  (t.renew hx v).withdraw (renewed_valid v) x.event

theorem Covered.arm (v : timer.Valid now) (c : Covered family table sessions timer flying) :
    Covered family table
      (sessions.modify id fun x' =>
        { x' with generation := x.generation + 1, event := some timer.nextId })
      (rearm timer now timeout family id x) flying :=
  (c.renew t hx).withdraw (renewed_valid v) x.event fun _ hn => superseded_renew t hx hn

end Arm

/-! ## Processing -/

section Process

variable {f : Session → Session} {id : Nat}
  (hf : ∀ x, (f x).key = x.key ∧ (f x).generation = x.generation ∧ (f x).event = x.event)
include hf

theorem getElem?_modify_of_some {j : Nat} {x : Session} (h : sessions[j]? = some x) :
    ∃ y, (sessions.modify id f)[j]? = some y ∧ y.key = x.key ∧ y.generation = x.generation ∧
      y.event = x.event := by
  rw [List.getElem?_modify, h]
  by_cases hj : id = j
  · exact ⟨f x, by simp [hj], hf x⟩
  · exact ⟨x, by simp [hj], rfl, rfl, rfl⟩

theorem some_of_getElem?_modify {j : Nat} {y : Session} (h : (sessions.modify id f)[j]? = some y) :
    ∃ x, sessions[j]? = some x ∧ y.key = x.key ∧ y.generation = x.generation ∧
      y.event = x.event := by
  have hl := (List.getElem?_eq_some_iff.mp h).choose
  rw [List.length_modify] at hl
  obtain ⟨y', hy', hk⟩ : ∃ y', (sessions.modify id f)[j]? = some y' ∧ _ :=
    getElem?_modify_of_some hf (List.getElem?_eq_getElem hl)
  obtain rfl : y = y' := Option.some.inj (h.symm.trans hy')
  exact ⟨_, List.getElem?_eq_getElem hl, hk⟩

/-- A change of sessions that leaves key, generation and event alone. -/
theorem Tracked.modify (t : Tracked family table sessions timer flying) :
    Tracked family table (sessions.modify id f) timer flying where
  entry := by
    intro k j hj
    obtain ⟨x, hx, hk⟩ := t.entry k j hj
    obtain ⟨y, hy, hyk, -⟩ := getElem?_modify_of_some hf hx
    exact ⟨y, hy, hyk.trans hk⟩
  oneShot := t.oneShot
  known := by
    intro e he
    obtain ⟨hfam, hg, x, hx, hle⟩ := t.known e he
    obtain ⟨y, hy, -, hyg, -⟩ := getElem?_modify_of_some hf hx
    exact ⟨hfam, hg, y, hy, hyg ▸ hle⟩
  newest := by
    intro j y n hy hn
    obtain ⟨x, hx, -, -, he⟩ := some_of_getElem?_modify hf hy
    exact t.newest j x n hx (he ▸ hn)

theorem Covered.modify (c : Covered family table sessions timer flying) :
    Covered family table (sessions.modify id f) timer flying := by
  intro k j y hk hy hg
  obtain ⟨x, hx, -, hyg, -⟩ := some_of_getElem?_modify hf hy
  rw [hyg] at hg ⊢
  exact c k j x hk hx hg

theorem Superseded.modify {n : Nat} (h : Superseded sessions timer n) :
    Superseded (sessions.modify id f) timer n := by
  refine h.mono (Nat.le_refl _) (fun j x hx => ?_) fun e he _ => ⟨e, he, rfl, rfl⟩
  obtain ⟨y, hy, -, hg, -⟩ := getElem?_modify_of_some hf hx
  exact ⟨y, hy, Nat.le_of_eq hg.symm⟩

end Process

/-! ## Passes -/

section Pass

variable (v : timer.Valid now)
include v

theorem toCome_pass_perm (h : ∀ e ∈ timer.events, e.repeats = false) (flying : List Expiry) :
    (toCome (timer.pass now).2 (flying ++ (timer.pass now).1.map (·.action))).Perm
      (toCome timer flying) := by
  have hp := v.pass_actions_perm h
  unfold toCome
  refine (List.perm_append_comm.append_left _).trans ?_
  rw [← List.append_assoc]
  exact hp.append_right _

theorem Tracked.pass (t : Tracked family table sessions timer flying) :
    Tracked family table sessions (timer.pass now).2
      (flying ++ (timer.pass now).1.map (·.action)) where
  entry := t.entry
  oneShot := by
    intro x hx
    obtain ⟨e, he, -, rfl⟩ := v.mem_left.mp hx
    rw [Timer.Event.advance_repeats]
    exact t.oneShot e he
  known := fun e he => t.known e ((toCome_pass_perm v t.oneShot flying).mem_iff.mp he)
  newest := by
    intro id x n hx hn
    obtain ⟨hlt, hev⟩ := t.newest id x n hx hn
    refine ⟨hlt, ?_⟩
    intro y hy hid
    obtain ⟨e, he, -, rfl⟩ := v.mem_left.mp hy
    rw [Timer.Event.advance_id] at hid
    rw [Timer.Event.advance_action]
    exact hev e he hid

theorem Superseded.pass {n : Nat} (h : Superseded sessions timer n) :
    Superseded sessions (timer.pass now).2 n := by
  refine h.mono (Nat.le_refl _) (fun _ x hx => ⟨x, hx, Nat.le_refl _⟩) fun y hy _ => ?_
  obtain ⟨e, he, -, rfl⟩ := v.mem_left.mp hy
  exact ⟨e, he, (Timer.Event.advance_id e now).symm, (Timer.Event.advance_action e now).symm⟩

theorem Covered.pass (c : Covered family table sessions timer flying)
    (t : Tracked family table sessions timer flying) :
    Covered family table sessions (timer.pass now).2
      (flying ++ (timer.pass now).1.map (·.action)) := by
  intro k id x hk hx hg
  rw [(toCome_pass_perm v t.oneShot flying).count_eq]
  exact c k id x hk hx hg

end Pass

/-! ## Removals -/

theorem Tracked.shrink (t : Tracked family table sessions timer flying) {table' : Table PeerKey Nat}
    (h : ∀ k id, table'.find? k = some id → table.find? k = some id) :
    Tracked family table' sessions timer flying :=
  ⟨fun k id hk => t.entry k id (h k id hk), t.oneShot, t.known, t.newest⟩

theorem Covered.shrink (c : Covered family table sessions timer flying) {table' : Table PeerKey Nat}
    (h : ∀ k id, table'.find? k = some id → table.find? k = some id) :
    Covered family table' sessions timer flying :=
  fun k id x hk => c k id x (h k id hk)

theorem toCome_eraseIdx_perm {i : Nat} {e : Expiry} (h : flying[i]? = some e) :
    (toCome timer flying).Perm (e :: toCome timer (flying.eraseIdx i)) := by
  obtain ⟨hi, rfl⟩ := List.getElem?_eq_some_iff.mp h
  exact ((List.getElem_cons_eraseIdx_perm hi).symm.append_left _).trans List.perm_middle

/-- Giving up an expiry leaves the others as they were. -/
theorem Tracked.eraseIdx (t : Tracked family table sessions timer flying) (i : Nat) :
    Tracked family table sessions timer (flying.eraseIdx i) where
  entry := t.entry
  oneShot := t.oneShot
  known := by
    intro e he
    refine t.known e ?_
    rcases List.mem_append.mp he with he | he
    · exact List.mem_append_left _ he
    · exact List.mem_append_right _ (List.mem_of_mem_eraseIdx he)
  newest := t.newest

theorem find?_of_find?_expire {m : SessionManager}
    (t : Tracked m.family m.table m.sessions timer flying) {e : Expiry} {k : PeerKey} {id : Nat}
    (h : (m.expire e).1.table.find? k = some id) : m.table.find? k = some id := by
  rw [find?_expire t.entry] at h
  split_ifs at h
  exact h

/-- An expiry that was handed out is carried out: if it is the newest of its session, the session
goes with it, and else it was not the one that the session waits for. -/
theorem Covered.expire {m : SessionManager} (c : Covered m.family m.table m.sessions timer flying)
    (t : Tracked m.family m.table m.sessions timer flying) {i : Nat} {e : Expiry}
    (hi : flying[i]? = some e) :
    Covered m.family (m.expire e).1.table m.sessions timer (flying.eraseIdx i) := by
  intro k id x hk hx hg
  have hold := find?_of_find?_expire t hk
  have hne : e ≠ ⟨m.family, id, x.generation⟩ := by
    rintro rfl
    rw [find?_expire t.entry, if_pos ⟨hold, by simp [hx]⟩] at hk
    cases hk
  have hc := c k id x hold hx hg
  rw [(toCome_eraseIdx_perm hi).count_eq, List.count_cons_of_ne hne] at hc
  exact hc

end SessionDispatch.SessionManager
