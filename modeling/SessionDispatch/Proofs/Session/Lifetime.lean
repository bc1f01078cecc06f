import Mathlib.Data.List.Induction
import SessionDispatch.Proofs.Session.Settled

/-!
# How long sessions live

Which sessions the table holds after any calls can be told from the calls alone: a session ends when
the timeout has gone by that was in force when it was armed last, and it is armed by the record that
makes it and by those that reach it while expiry slides. What sessions know of their peer and of the
records that reached them follows in the same way.
-/

namespace SessionDispatch.SessionService

/-- The policy in force and the reading of the clock. -/
structure Moment where
  policy : ExpiryPolicy
  now : Instant

namespace Moment

def call (t : Moment) : Call → Moment
  | .advance d => { t with now := t.now + d }
  | .setPolicy policy => { t with policy }
  | _ => t

def after (t : Moment) (calls : List Call) : Moment := calls.foldl call t

def due (t : Moment) : Instant := t.now + t.policy.timeout

def renews (t : Moment) (k : PeerKey) : Call → Bool
  | .dispatch p => p.key = k && t.policy.mode = .sliding
  | _ => false

/-- When the session of a key ends after some calls that was to end at an instant before them. -/
def ending (t : Moment) (k : PeerKey) : Instant → List Call → Instant
  | due, [] => due
  | due, c :: calls => (t.call c).ending k (if t.renews k c then t.due else due) calls

def renewals (t : Moment) (k : PeerKey) : List Call → Nat
  | [] => 0
  | c :: calls => (if t.renews k c then 1 else 0) + (t.call c).renewals k calls

variable (t : Moment) (k : PeerKey) (calls : List Call) (c : Call)

theorem after_concat : t.after (calls ++ [c]) = (t.after calls).call c := by
  simp [after]

theorem ending_concat (due : Instant) :
    t.ending k due (calls ++ [c]) =
      if (t.after calls).renews k c then (t.after calls).due else t.ending k due calls := by
  induction calls generalizing t due with
  | nil => rfl
  | cons b calls ih => exact ih (t.call b) _

theorem renewals_concat :
    t.renewals k (calls ++ [c]) =
      t.renewals k calls + if (t.after calls).renews k c then 1 else 0 := by
  induction calls generalizing t with
  | nil => exact Nat.add_comm ..
  | cons b calls ih =>
      have h := ih (t.call b)
      simp only [List.cons_append, renewals, h, Nat.add_assoc]
      rfl

end Moment

/-- Whether a call brings a record to the session of a key. -/
def Call.reaches (k : PeerKey) : Call → Bool
  | .dispatch p => p.key = k
  | _ => false

def arms (s : SessionService) : Call → Bool
  | .dispatch p => s.manager.mustArm (s.manager.find? p.key).isNone
  | _ => false

def moment (s : SessionService) : Moment := ⟨s.manager.policy, s.now⟩

/-- A record makes the session of a key after some calls, and no call or pass up to now has
ended it. -/
structure Lives (start : SessionService) (h : Handler) (k : PeerKey) (before : List Call)
    (p : Packet) (after : List Call) : Prop where
  key : p.key = k
  made : (start.run h before).manager.find? k = none
  notRemoved : .remove k ∉ after
  notCleared : .clear ∉ after
  inTime : ∀ passed, passed <+: after →
    ((start.moment.after before).after passed).now <
      (start.moment.after before).ending k (start.moment.after before).due passed

variable {s : SessionService} {h : Handler}

/-! ## One call -/

theorem call_dispatch (s : SessionService) (h : Handler) (p : Packet) :
    s.call h (.dispatch p) = (some (s.manager.dispatch s.timer s.now h p).1,
      { s with
        manager := (s.manager.dispatch s.timer s.now h p).2.1
        timer := (s.manager.dispatch s.timer s.now h p).2.2.1
        metrics := s.metrics ++ (s.manager.dispatch s.timer s.now h p).2.2.2 }) := rfl

theorem moment_call (s : SessionService) (h : Handler) (c : Call) :
    (s.call h c).2.moment = s.moment.call c := by
  cases c with
  | dispatch p =>
      rw [call_dispatch]
      exact congrArg (Moment.mk · s.now) (SessionManager.dispatch_created ..).2
  | advance d => rfl
  | setPolicy policy => rfl
  | remove k => rfl
  | clear => rfl

theorem settled_call (hs : s.manager.Settled s.timer s.now) (h : Handler) (c : Call) :
    (s.call h c).2.manager.Settled (s.call h c).2.timer (s.call h c).2.now := by
  have hshrink : ∀ {table : Table PeerKey Nat},
      (∀ k id, table.find? k = some id → s.manager.table.find? k = some id) →
      ({ s.manager with table } : SessionManager).Settled s.timer s.now := fun ht =>
    ⟨hs.valid, hs.tracked.shrink ht, hs.covered.shrink ht,
      fun k id x hk => hs.armed k id x (ht k id hk)⟩
  cases c with
  | dispatch p => exact hs.dispatch h p
  | advance d => exact ⟨hs.valid.mono (Nat.le_add_right _ _), hs.tracked, hs.covered, hs.armed⟩
  | setPolicy policy => exact ⟨hs.valid, hs.tracked, hs.covered, hs.armed⟩
  | remove k =>
      refine hshrink fun j id hj => ?_
      rw [Table.find?_erase] at hj
      split_ifs at hj
      exact hj
  | clear => exact hshrink fun k id hk => absurd hk (Table.find?_empty_ne_some k id)

section Leases

variable {k : PeerKey} {x : Session} {due : Instant}

/-- A call that does not end a session leaves its end as it is, unless it arms the session anew. -/
theorem leases_call (hs : s.manager.Settled s.timer s.now) (hl : s.manager.Leases s.timer k x due)
    (h : Handler) {c : Call} (hremove : c ≠ .remove k) (hclear : c ≠ .clear) :
    ∃ x', (s.call h c).2.manager.Leases (s.call h c).2.timer k x'
        (if s.moment.renews k c then s.moment.due else due) ∧
      x'.key = x.key ∧ x'.peer = x.peer ∧
      x'.packets = x.packets + (if c.reaches k then 1 else 0) ∧
      x'.generation = x.generation + (if s.moment.renews k c then 1 else 0) := by
  cases c with
  | dispatch p =>
      by_cases hp : p.key = k
      · subst hp
        have hd := hl.dispatch hs h
        by_cases hmode : s.manager.policy.mode = .sliding
        · rw [if_pos hmode, if_pos hmode] at hd
          have hr : s.moment.renews p.key (.dispatch p) = true := by
            simp [Moment.renews, moment, hmode]
          rw [if_pos hr]
          exact ⟨_, hd, rfl, rfl, by simp [Call.reaches], by simp [hr]⟩
        · rw [if_neg hmode, if_neg hmode] at hd
          have hr : ¬ s.moment.renews p.key (.dispatch p) = true := by
            simp [Moment.renews, moment, hmode]
          rw [if_neg hr]
          exact ⟨_, hd, rfl, rfl, by simp [Call.reaches], by simp [hr]⟩
      · have hr : ¬ s.moment.renews k (.dispatch p) = true := by simp [Moment.renews, hp]
        rw [if_neg hr]
        exact ⟨x, hl.dispatch_other hs h hp, rfl, rfl, by simp [Call.reaches, hp], by simp [hr]⟩
  | advance d => exact ⟨x, hl, rfl, rfl, rfl, rfl⟩
  | setPolicy policy => exact ⟨x, hl, rfl, rfl, rfl, rfl⟩
  | remove j =>
      have hj : k ≠ j := fun h => hremove (h ▸ rfl)
      obtain ⟨id, hk, hx, he⟩ := hl
      refine ⟨x, ⟨id, ?_, hx, he⟩, rfl, rfl, rfl, rfl⟩
      change (s.manager.table.erase j).find? k = _
      rw [Table.find?_erase, if_neg hj]
      exact hk
  | clear => exact absurd rfl hclear

/-- Only a record can bring a session to a key that has none. -/
theorem find?_call_of_none (h : Handler) {c : Call} (hk : s.manager.table.find? k = none)
    (hc : ∀ p, c = .dispatch p → p.key ≠ k) : (s.call h c).2.manager.table.find? k = none := by
  cases c with
  | dispatch p =>
      rw [call_dispatch]
      exact (SessionManager.find?_dispatch_of_ne (hc p rfl).symm).trans hk
  | advance d => exact hk
  | setPolicy policy => exact hk
  | remove j =>
      change (s.manager.table.erase j).find? k = none
      rw [Table.find?_erase, hk, ite_self]
  | clear => rfl

end Leases

/-! ## One step -/

theorem foldl_expire (s : SessionService) (flying : List Expiry) :
    ∃ metrics, flying.foldl expire s =
      { s with manager := s.manager.expireAll flying, metrics } := by
  induction flying generalizing s with
  | nil => exact ⟨s.metrics, rfl⟩
  | cons e flying ih => exact ih (s.expire e)

theorem pass_eq (s : SessionService) :
    ∃ metrics, s.pass =
      { s with
        manager := s.manager.settle s.timer s.now
        timer := (s.timer.pass s.now).2
        metrics } := foldl_expire { s with timer := _, metrics := _ } _

theorem run_concat (s : SessionService) (h : Handler) (calls : List Call) (c : Call) :
    s.run h (calls ++ [c]) = ((s.run h calls).call h c).2.pass := by
  unfold run step
  rw [List.foldl_append]
  rfl

theorem settled_run (hs : s.manager.Settled s.timer s.now) (h : Handler) (calls : List Call) :
    (s.run h calls).manager.Settled (s.run h calls).timer (s.run h calls).now := by
  induction calls using List.reverseRecOn with
  | nil => exact hs
  | append_singleton calls c ih =>
      obtain ⟨_, hp⟩ := ((s.run h calls).call h c).2.pass_eq
      rw [run_concat, hp]
      exact (settled_call ih h c).settle

theorem moment_pass (s : SessionService) : s.pass.moment = s.moment := by
  obtain ⟨_, hp⟩ := s.pass_eq
  rw [hp]
  unfold moment SessionManager.settle
  dsimp only
  rw [SessionManager.expireAll_eq]

theorem moment_run (s : SessionService) (h : Handler) (calls : List Call) :
    (s.run h calls).moment = s.moment.after calls := by
  induction calls using List.reverseRecOn with
  | nil => rfl
  | append_singleton calls c ih =>
      rw [run_concat, moment_pass, moment_call, ih, Moment.after_concat]

theorem find?_eq_none_iff (hs : s.manager.Settled s.timer s.now) {k : PeerKey} :
    s.manager.find? k = none ↔ s.manager.table.find? k = none := by
  unfold SessionManager.find? SessionManager.session?
  cases hk : s.manager.table.find? k with
  | none => simp
  | some id =>
      obtain ⟨x, hx, -⟩ := hs.tracked.entry k id hk
      simp [hx]

/-! ## Runs -/

section Run

variable {start : SessionService} {k : PeerKey} {before after : List Call} {p : Packet}
  (hs : start.manager.Settled start.timer start.now)
include hs

omit hs in
theorem lives_nil_iff :
    start.Lives h k before p [] ↔ p.key = k ∧ (start.run h before).manager.find? k = none ∧
      (start.moment.after before).now < (start.moment.after before).due := by
  constructor
  · exact fun hl => ⟨hl.key, hl.made, hl.inTime [] List.nil_prefix⟩
  · rintro ⟨hk, hm, ht⟩
    refine ⟨hk, hm, List.not_mem_nil, List.not_mem_nil, ?_⟩
    intro passed hp
    rw [List.prefix_nil.mp hp]
    exact ht

omit hs in
theorem lives_concat_iff {c : Call} :
    start.Lives h k before p (after ++ [c]) ↔
      start.Lives h k before p after ∧ c ≠ .remove k ∧ c ≠ .clear ∧
        ((start.moment.after before).after (after ++ [c])).now <
          (start.moment.after before).ending k (start.moment.after before).due (after ++ [c]) := by
  constructor
  · intro hl
    have hr := fun hc => hl.notRemoved (List.mem_append_right _ (List.mem_singleton.mpr hc))
    have hc := fun hc => hl.notCleared (List.mem_append_right _ (List.mem_singleton.mpr hc))
    refine ⟨⟨hl.key, hl.made, fun hm => hl.notRemoved (List.mem_append_left _ hm),
      fun hm => hl.notCleared (List.mem_append_left _ hm), ?_⟩, fun h => hr h.symm,
        fun h => hc h.symm,
      hl.inTime _ List.prefix_rfl⟩
    intro passed hp
    exact hl.inTime passed (hp.trans (List.prefix_append ..))
  · rintro ⟨hl, hr, hc, ht⟩
    refine ⟨hl.key, hl.made, ?_, ?_, ?_⟩
    · intro hm
      rcases List.mem_append.mp hm with hm | hm
      · exact hl.notRemoved hm
      · exact hr (List.mem_singleton.mp hm).symm
    · intro hm
      rcases List.mem_append.mp hm with hm | hm
      · exact hl.notCleared hm
      · exact hc (List.mem_singleton.mp hm).symm
    · intro passed hp
      rcases List.prefix_concat_iff.mp hp with rfl | hp
      · exact ht
      · exact hl.inTime passed hp

omit hs in
theorem run_dispatch_concat (c : Call) :
    start.run h (before ++ .dispatch p :: (after ++ [c])) =
      ((start.run h (before ++ .dispatch p :: after)).call h c).2.pass := by
  rw [← List.cons_append, ← List.append_assoc, run_concat]

omit hs in
theorem moment_run_dispatch :
    (start.run h (before ++ .dispatch p :: after)).moment =
      (start.moment.after before).after after := by
  rw [moment_run]
  unfold Moment.after
  rw [List.foldl_append]
  rfl

omit hs in
theorem now_call_dispatch {c : Call} :
    ((start.moment.after before).after (after ++ [c])).now =
      ((start.run h (before ++ .dispatch p :: after)).call h c).2.now := by
  rw [Moment.after_concat, ← moment_run_dispatch, ← moment_call]
  rfl

/-- A session that no call or pass has ended is in the table. -/
theorem Lives.leases (hl : start.Lives h k before p after) :
    ∃ x, (start.run h (before ++ .dispatch p :: after)).manager.Leases
        (start.run h (before ++ .dispatch p :: after)).timer k x
        ((start.moment.after before).ending k (start.moment.after before).due after) ∧
      x.key = k ∧ x.peer = p.peer ∧ x.packets = 1 + after.countP (·.reaches k) ∧
      x.generation = 1 + (start.moment.after before).renewals k after := by
  induction after using List.reverseRecOn with
  | nil =>
      obtain ⟨rfl, hmade, ht⟩ := lives_nil_iff.mp hl
      have hb := settled_run hs h before
      have hm := moment_run start h before
      have hd := SessionManager.leases_dispatch hb h ((find?_eq_none_iff hb).mp hmade)
      obtain ⟨_, hp⟩ := ((start.run h before).call h (.dispatch p)).2.pass_eq
      rw [run_concat, hp]
      rw [← hm] at ht ⊢
      exact ⟨_, hd.settle (settled_call hb h (.dispatch p)) ht, rfl, rfl, rfl, rfl⟩
  | append_singleton after c ih =>
      obtain ⟨hl, hr, hc, ht⟩ := lives_concat_iff.mp hl
      obtain ⟨x, hx, hkey, hpeer, hpackets, hgen⟩ := ih hl
      have hb := settled_run hs h (before ++ .dispatch p :: after)
      have hm : (start.run h (before ++ .dispatch p :: after)).moment = _ := moment_run_dispatch
      obtain ⟨x', hx', hkey', hpeer', hpackets', hgen'⟩ := leases_call hb hx h hr hc
      rw [hm] at hx' hgen'
      rw [← Moment.ending_concat] at hx'
      obtain ⟨_, hp⟩ := ((start.run h (before ++ .dispatch p :: after)).call h c).2.pass_eq
      rw [run_dispatch_concat, hp]
      refine ⟨x', hx'.settle (settled_call hb h c) (now_call_dispatch ▸ ht), hkey'.trans hkey,
        hpeer'.trans hpeer, ?_, ?_⟩
      · rw [hpackets', hpackets, List.countP_append, List.countP_singleton, Nat.add_assoc]
      · rw [hgen', hgen, Moment.renewals_concat, Nat.add_assoc]

/-- A session of the table was made by a record, and no call or pass has ended it since. -/
theorem exists_lives (h : Handler) {calls : List Call} (hstart : start.manager.table.find? k = none)
    (hk : (start.run h calls).manager.table.find? k ≠ none) :
    ∃ before p after, calls = before ++ .dispatch p :: after ∧ start.Lives h k before p after := by
  induction calls using List.reverseRecOn with
  | nil => exact absurd hstart hk
  | append_singleton calls c ih =>
      have hb := settled_run hs h calls
      obtain ⟨_, hp⟩ := ((start.run h calls).call h c).2.pass_eq
      rw [run_concat, hp] at hk
      have hcall := mt (SessionManager.find?_settle_of_none (settled_call hb h c)) hk
      by_cases hnone : (start.run h calls).manager.table.find? k = none
      · obtain ⟨p, rfl, rfl⟩ : ∃ p, c = .dispatch p ∧ p.key = k := by
          by_contra hno
          exact hcall (find?_call_of_none h hnone fun p hc hp => hno ⟨p, hc, hp⟩)
        refine ⟨calls, p, [], rfl, lives_nil_iff.mpr ⟨rfl, (find?_eq_none_iff hb).mpr hnone, ?_⟩⟩
        have hd := SessionManager.leases_dispatch hb h hnone
        rw [← moment_run start h calls]
        by_contra ht
        exact hk (hd.find?_settle_of_due (settled_call hb h (.dispatch p)) (Nat.not_lt.mp ht))
      · obtain ⟨before, p, after, rfl, hl⟩ := ih hnone
        have hr : c ≠ .remove k := by
          rintro rfl
          exact hcall ((Table.find?_erase ..).trans (if_pos rfl))
        have hc : c ≠ .clear := by
          rintro rfl
          exact hcall rfl
        refine ⟨before, p, after ++ [c], by simp, lives_concat_iff.mpr ⟨hl, hr, hc, ?_⟩⟩
        obtain ⟨x, hx, -⟩ := hl.leases hs
        obtain ⟨x', hx', -⟩ := leases_call hb hx h hr hc
        rw [moment_run_dispatch, ← Moment.ending_concat] at hx'
        by_contra ht
        refine hk (hx'.find?_settle_of_due (settled_call hb h c) ?_)
        rw [← now_call_dispatch]
        exact Nat.not_lt.mp ht

end Run

theorem isNone_find? (hs : s.manager.Settled s.timer s.now) (k : PeerKey) :
    (s.manager.find? k).isNone = (s.manager.table.find? k).isNone := by
  rw [Bool.eq_iff_iff, Option.isNone_iff_eq_none, Option.isNone_iff_eq_none, find?_eq_none_iff hs]

theorem nextId_step (hs : s.manager.Settled s.timer s.now) (h : Handler) (c : Call) :
    (s.step h c).timer.nextId = s.timer.nextId + if s.arms c then 1 else 0 := by
  obtain ⟨_, hp⟩ := (s.call h c).2.pass_eq
  have hn : (s.step h c).timer.nextId = (s.call h c).2.timer.nextId := by
    rw [step, hp]
    rfl
  rw [hn]
  cases c with
  | dispatch p =>
      rw [arms, isNone_find? hs]
      exact SessionManager.nextId_dispatch hs h p
  | advance d => rfl
  | setPolicy policy => rfl
  | remove k => rfl
  | clear => rfl

/-- After any calls a key has a session just if a record made one that no call or pass has ended.
Such a session is armed for the end that the calls since then tell, and knows its peer, the records
that reached it and how often it was armed. A record reports a session as made if there was none,
and timers are armed by records alone. -/
theorem session_lives_until_timeout (h : Handler) (family : Family) (order : Discipline)
    (policy : ExpiryPolicy) (now : Instant) (calls : List Call) :
    let start : SessionService := { manager := .new family order policy, now }
    let s := start.run h calls
    let moment := (Moment.mk policy now).after
    (∀ k, (s.manager.find? k).isSome ↔
      ∃ before p after, calls = before ++ .dispatch p :: after ∧ start.Lives h k before p after) ∧
      (∀ k before p after, calls = before ++ .dispatch p :: after → start.Lives h k before p after →
        ∃ x, s.manager.find? k = some x ∧ x.key = k ∧ k = .ofAddress x.peer ∧ x.peer = p.peer ∧
          x.packets = 1 + after.countP (·.reaches k) ∧
          x.generation = 1 + (moment before).renewals k after ∧
          ∃ e ∈ s.timer.events, x.event = some e.id ∧
            e.due = (moment before).ending k (moment before).due after) ∧
      (∀ p, ∃ replies,
          (s.call h (.dispatch p)).1 = some ⟨(s.manager.find? p.key).isNone, replies⟩) ∧
      ∀ c, (s.step h c).timer.nextId = s.timer.nextId + if s.arms c then 1 else 0 := by
  intro start s moment
  have hstart : start.manager.Settled start.timer start.now := SessionManager.settled_new ..
  have hs : s.manager.Settled s.timer s.now := settled_run hstart h calls
  have hfind : ∀ k before p after, calls = before ++ .dispatch p :: after →
      start.Lives h k before p after → ∃ x, s.manager.find? k = some x ∧ x.key = k ∧
        k = .ofAddress x.peer ∧ x.peer = p.peer ∧ x.packets = 1 + after.countP (·.reaches k) ∧
        x.generation = 1 + (moment before).renewals k after ∧
        ∃ e ∈ s.timer.events, x.event = some e.id ∧
          e.due = (moment before).ending k (moment before).due after := by
    intro k before p after hcalls hl
    obtain ⟨x, ⟨id, hk, hx, e, he, hev, -, hd⟩, hkey, hpeer, hpackets, hgen⟩ := hl.leases hstart
    rw [← hcalls] at hk hx he
    refine ⟨x, ?_, hkey, ?_, hpeer, hpackets, hgen, e, he, hev, hd⟩
    · unfold SessionManager.find? SessionManager.session?
      rw [hk]
      exact hx
    · rw [hpeer, ← hl.key]
      rfl
  refine ⟨fun k => ⟨fun hk => ?_, ?_⟩, hfind, fun p => ?_, nextId_step hs h⟩
  · refine exists_lives hstart h rfl fun hnone => ?_
    rw [(find?_eq_none_iff hs).mpr hnone] at hk
    cases hk
  · rintro ⟨before, p, after, hcalls, hl⟩
    obtain ⟨x, hx, -⟩ := hfind k before p after hcalls hl
    rw [hx]
    rfl
  · refine ⟨(s.manager.dispatch s.timer s.now h p).1.replies, ?_⟩
    rw [call_dispatch, isNone_find? hs,
      ← (SessionManager.dispatch_created s.manager s.timer s.now h p).1]

/-- The second record slides the end from five to eight milliseconds. -/
example : ((({ manager := .new .v4 .fifo ⟨5, .sliding⟩, now := 7 } : SessionService).run .silent
    [.dispatch ⟨.v4 .loopback 500, []⟩, .advance (.ofMillis 3), .dispatch ⟨.v4 .loopback 500, []⟩,
      .advance (.ofMillis 4)]).manager.table.find? (.ofAddress (.v4 .loopback 500))) = some 0 := by
        cbv

end SessionDispatch.SessionService
