import Mathlib.Data.List.Induction
import SessionDispatch.Proofs.Session.Pending
import SessionDispatch.Proofs.Session.Steps

/-!
# Only the newest timer ends a session

Dispatchers, passes and expiries follow one another in any order. A pass may hand out an event just
before it would be cancelled, expiries may be carried out late, and a key may be removed and routed
to a new session in between. Still an expiry ends a session only if the session was not armed since,
and as long as expiries are carried out no armed session of the table is without its end.
-/

namespace SessionDispatch.Dispatchers

open SessionManager

/-- The session that a dispatcher has made and not armed yet. -/
def Stage.unarmed? : Stage → Option Nat
  | .routed _ id true | .arming _ id true => some id
  | _ => none

/-- The dispatcher that made a session has not armed it yet. -/
def Unarmed (s : Dispatchers) (id : Nat) : Prop :=
  ∃ (d : Nat) (stage : Stage), s.stages[d]? = some stage ∧ stage.unarmed? = some id

def Stage.previous? : Stage → Option Nat
  | .disarming _ _ _ previous => previous
  | _ => none

structure Sound (s : Dispatchers) : Prop where
  valid : s.timer.Valid s.now
  tracked : Tracked s.manager.family s.manager.table s.manager.sessions s.timer s.expiries
  covered : s.poolClosed = false →
    Covered s.manager.family s.manager.table s.manager.sessions s.timer s.expiries
  unarmed : ∀ id x, s.manager.sessions[id]? = some x → x.generation = 0 → s.Unarmed id
  superseded : ∀ stage ∈ s.stages, ∀ n, stage.previous? = some n →
    Superseded s.manager.sessions s.timer n

variable {h : Handler} {s s' : Dispatchers} {d id : Nat}

/-- A dispatcher that goes on leaves the sessions that others have made and not armed, and its own
as well if it still has it. -/
theorem Unarmed.setStage (hu : s.Unarmed id) {old new : Stage} (hd : s.stages[d]? = some old)
    (hn : old.unarmed? = some id → new.unarmed? = some id) : (s.setStage d new).Unarmed id := by
  obtain ⟨j, stage, hj, hid⟩ := hu
  have hl := (List.getElem?_eq_some_iff.mp hd).choose
  by_cases hjd : d = j
  · subst hjd
    obtain rfl : old = stage := Option.some.inj (hd.symm.trans hj)
    exact ⟨d, new, List.getElem?_set_self hl, hn hid⟩
  · exact ⟨j, stage, (List.getElem?_set_ne hjd).trans hj, hid⟩

theorem sound_start (family : Family) (order : Discipline) (policy : ExpiryPolicy) (now : Instant)
    (count : Nat) : (start (.new family order policy) now count).Sound where
  valid := Timer.valid_new now
  tracked := tracked_new
  covered := fun _ => covered_new
  unarmed := by
    intro id x hx
    cases hx
  superseded := by
    intro stage hm n hn
    obtain ⟨-, rfl⟩ := List.mem_replicate.mp hm
    cases hn

/-- Events that were superseded stay so, also while one dispatcher comes to a new stage. -/
theorem superseded_setStage {P Q : Nat → Prop}
    (hold : ∀ stage ∈ s.stages, ∀ n, stage.previous? = some n → P n) (hstep : ∀ n, P n → Q n)
    {new : Stage} (hnew : ∀ n, new.previous? = some n → Q n) :
    ∀ stage ∈ s.stages.set d new, ∀ n, stage.previous? = some n → Q n := by
  intro stage hm n hn
  rcases List.mem_or_eq_of_mem_set hm with hm | rfl
  · exact hstep n (hold stage hm n hn)
  · exact hnew n hn

/-- What an act changes at one dispatcher alone. -/
theorem Sound.setStage (hs : s.Sound) {old new : Stage} (hd : s.stages[d]? = some old)
    (hn : ∀ id x, s.manager.sessions[id]? = some x → old.unarmed? = some id →
      new.unarmed? = some id) (hp : new.previous? = none) : (s.setStage d new).Sound where
  valid := hs.valid
  tracked := hs.tracked
  covered := hs.covered
  unarmed := fun id x hx hg => (hs.unarmed id x hx hg).setStage hd (hn id x hx)
  superseded :=
    superseded_setStage hs.superseded (fun _ h => h) fun _ h => absurd (hp.symm.trans h) nofun

namespace Sound

theorem route (hs : s.Sound) (ha : act h s (.route d) = some s') : s'.Sound := by
  obtain ⟨p, hd, rfl⟩ := act_route ha
  cases hf : s.manager.table.find? p.key with
  | some id =>
      rw [route_of_some hf]
      exact hs.setStage hd nofun rfl
  | none =>
      rw [route_of_none hf]
      refine ⟨hs.valid, hs.tracked.route rfl rfl, fun hc => (hs.covered hc).route hs.tracked rfl,
        ?_,
        superseded_setStage hs.superseded (fun _ h => h.route) nofun⟩
      intro j x hx hg
      by_cases hj : j < s.manager.sessions.length
      · have hx' : s.manager.sessions[j]? = some x := (List.getElem?_append_left hj).symm.trans hx
        exact (hs.unarmed j x hx' hg).setStage hd nofun
      · have hl := (List.getElem?_eq_some_iff.mp hx).choose
        have hj' : s.manager.sessions.length = j := by
          have hl' : j < (s.manager.sessions ++ [_]).length := hl
          rw [List.length_append, List.length_singleton] at hl'
          omega
        have hd' := (List.getElem?_eq_some_iff.mp hd).choose
        exact ⟨d, _, List.getElem?_set_self hd', congrArg some hj'⟩

theorem decide (hs : s.Sound) (ha : act h s (.decide d) = some s') : s'.Sound := by
  obtain ⟨p, id, created, hd, rfl⟩ := act_decide ha
  have hs' :
      ({ s with metrics := if created then s.metrics ++ [Metric.sessionCreated] else s.metrics }
      : Dispatchers).Sound := ⟨hs.valid, hs.tracked, hs.covered, hs.unarmed, hs.superseded⟩
  cases created with
  | true => exact hs'.setStage hd (fun j x _ hj => hj) rfl
  | false =>
      refine hs'.setStage hd nofun ?_
      split_ifs <;> rfl

theorem arm (hs : s.Sound) (ha : act h s (.arm d) = some s') : s'.Sound := by
  obtain ⟨p, id, created, hd, -, rfl⟩ := act_arm ha
  have hid : ∀ j, (Stage.arming p id created).unarmed? = some j → j = id := by
    intro j hj
    cases created with
    | true => exact (Option.some.inj hj).symm
    | false => cases hj
  cases hx : s.manager.sessions[id]? with
  | none =>
      rw [renew_of_none hx]
      refine hs.setStage hd (fun j y hy hj => ?_) rfl
      rw [hid j hj, hx] at hy
      cases hy
  | some x =>
      rw [renew_of_some hx]
      refine ⟨renewed_valid hs.valid, hs.tracked.renew hx hs.valid,
        fun hc => (hs.covered hc).renew hs.tracked hx, ?_,
        superseded_setStage hs.superseded (fun _ h => h.renew hx) fun _ hn =>
          superseded_renew hs.tracked hx hn⟩
      intro j y hy hg
      have hy' := (getElem?_modify_renew hx j s.timer.nextId).symm.trans hy
      split_ifs at hy' with hj
      · cases hy'
        cases hg
      · exact (hs.unarmed j y hy' hg).setStage hd fun h => absurd (hid j h) hj

theorem disarm (hs : s.Sound) (ha : act h s (.disarm d) = some s') : s'.Sound := by
  obtain ⟨p, id, created, previous, hd, rfl⟩ := act_disarm ha
  have hold := hs.superseded _ (List.mem_of_getElem? hd)
  exact ⟨withdraw_valid hs.valid previous, hs.tracked.withdraw hs.valid previous,
    fun hc => (hs.covered hc).withdraw hs.valid previous hold,
    fun j x hx hg => (hs.unarmed j x hx hg).setStage hd nofun,
    superseded_setStage hs.superseded (fun _ h => h.withdraw hs.valid previous) nofun⟩

theorem leave (hs : s.Sound) (ha : act h s (.leave d) = some s') : s'.Sound := by
  obtain ⟨p, id, created, hd, rfl⟩ := act_leave ha
  have hf : ∀ x : Session, ({ x with packets := x.packets + 1 } : Session).key = x.key ∧
      ({ x with packets := x.packets + 1 } : Session).generation = x.generation ∧
      ({ x with packets := x.packets + 1 } : Session).event = x.event := fun _ => ⟨rfl, rfl, rfl⟩
  rw [process_snd]
  refine ⟨hs.valid, hs.tracked.modify hf, fun hc => (hs.covered hc).modify hf, ?_,
    superseded_setStage hs.superseded (fun _ h => h.modify hf) nofun⟩
  intro j y hy hg
  obtain ⟨x, hx, -, hxg, -⟩ := some_of_getElem?_modify hf hy
  exact (hs.unarmed j x hx (hxg.symm.trans hg)).setStage hd nofun

theorem pass (hs : s.Sound) (ha : act h s .pass = some s') : s'.Sound := by
  obtain ⟨-, rfl⟩ := act_pass ha
  exact ⟨hs.valid.pass, hs.tracked.pass hs.valid,
    fun hc => (hs.covered hc).pass hs.valid hs.tracked,
    hs.unarmed, fun stage hm n hn => (hs.superseded stage hm n hn).pass hs.valid⟩

theorem expire {i : Nat} (hs : s.Sound) (ha : act h s (.expire i) = some s') : s'.Sound := by
  obtain ⟨e, hi, -, rfl⟩ := act_expire ha
  have hc := fun hp : s.poolClosed = false => (hs.covered hp).expire hs.tracked hi
  have ht : Tracked _ (s.manager.expire e).1.table _ _ _ :=
    (hs.tracked.eraseIdx i).shrink fun k id hk => find?_of_find?_expire hs.tracked hk
  rw [expire_eq]
  exact ⟨hs.valid, ht, hc, hs.unarmed, hs.superseded⟩

theorem shrink (hs : s.Sound) {table : Table PeerKey Nat}
    (ht : ∀ k id, table.find? k = some id → s.manager.table.find? k = some id) :
    ({ s with manager := { s.manager with table } } : Dispatchers).Sound :=
  ⟨hs.valid, hs.tracked.shrink ht, fun hc => (hs.covered hc).shrink ht, hs.unarmed, hs.superseded⟩

theorem act (hs : s.Sound) {a : Act} (ha : act h s a = some s') : s'.Sound := by
  cases a with
  | route d => exact hs.route ha
  | decide d => exact hs.decide ha
  | arm d => exact hs.arm ha
  | disarm d => exact hs.disarm ha
  | leave d => exact hs.leave ha
  | pass => exact hs.pass ha
  | expire i => exact hs.expire ha
  | take d =>
      obtain ⟨hd, ⟨p, -, rfl⟩ | ⟨-, -, rfl⟩⟩ := act_take ha
      · have hs' : ({ s with manager := { s.manager with inbound := s.manager.inbound.take.2 } }
            : Dispatchers).Sound := ⟨hs.valid, hs.tracked, hs.covered, hs.unarmed, hs.superseded⟩
        exact hs'.setStage hd nofun rfl
      · exact hs.setStage hd nofun rfl
  | enter d =>
      obtain ⟨p, id, created, x, hd, -, -, rfl⟩ := act_enter ha
      have hs' : ({ s with handled := s.handled ++ [(x.key, p.payload)] } : Dispatchers).Sound :=
        ⟨hs.valid, hs.tracked, hs.covered, hs.unarmed, hs.superseded⟩
      exact hs'.setStage hd nofun rfl
  | reply d =>
      obtain ⟨id, ⟨hd, rfl⟩ | ⟨p, rest, hd, rfl⟩⟩ := act_reply ha
      · exact hs.setStage hd nofun rfl
      · refine Sound.setStage
          (s := { s with manager := _, replied := _, dropped := _ }) ?_ hd nofun rfl
        exact ⟨hs.valid, hs.tracked, hs.covered, hs.unarmed, hs.superseded⟩
  | giveUp i =>
      obtain ⟨hc, rfl⟩ := act_giveUp ha
      exact ⟨hs.valid, hs.tracked.eraseIdx i, fun h => absurd (hc.symm.trans h) (by decide),
        hs.unarmed,
        hs.superseded⟩
  | tick d =>
      obtain rfl := Option.some.inj ha
      exact ⟨hs.valid.mono (Nat.le_add_right _ _), hs.tracked, hs.covered, hs.unarmed,
        hs.superseded⟩
  | remove k =>
      obtain rfl := Option.some.inj ha
      refine hs.shrink fun j id hj => ?_
      rw [Table.find?_erase] at hj
      split_ifs at hj
      exact hj
  | clear =>
      obtain rfl := Option.some.inj ha
      exact hs.shrink fun k id hk => absurd hk (Table.find?_empty_ne_some k id)
  | closePool =>
      obtain rfl := Option.some.inj ha
      exact ⟨hs.valid, hs.tracked, fun hopen => absurd hopen.symm Bool.false_ne_true, hs.unarmed,
        hs.superseded⟩
  | stopTimer =>
      obtain rfl := Option.some.inj ha
      have v := hs.valid
      have t := hs.tracked
      exact ⟨⟨v.nodup, v.id_lt, v.checkpoint_le, v.unspent⟩,
        ⟨t.entry, t.oneShot, t.known, t.newest⟩,
        hs.covered, hs.unarmed, hs.superseded⟩
  | arrive _ | closeInbound | closeOutbound | send | setPolicy _ =>
      obtain rfl := Option.some.inj ha
      exact ⟨hs.valid, hs.tracked, hs.covered, hs.unarmed, hs.superseded⟩

theorem run (hs : s.Sound) {acts : List Act} (hr : run h s acts = some s') : s'.Sound :=
  Run.invariant Sound (fun _ _ _ hs ha => hs.act ha) hs hr

end Sound

/-! ## The log of armings -/

def armed? (s : Dispatchers) : Act → Option Expiry
  | .arm d =>
    match s.stages[d]? with
    | some (.arming _ id _) => (s.manager.session? id).map (renewal s.manager.family id)
    | _ => none
  | _ => none

def armings (h : Handler) : Dispatchers → List Act → List Expiry := Run.observe (act h) armed?

/-- What an act can do to the sessions: nothing, make one, arm one anew, or count a record
of one. -/
theorem sessions_act {a : Act} (ha : act h s a = some s') :
    s'.manager.family = s.manager.family ∧
      ((s'.manager.sessions = s.manager.sessions ∧ s.armed? a = none) ∨
        (∃ y : Session, y.generation = 0 ∧ s'.manager.sessions = s.manager.sessions ++ [y] ∧
          s.armed? a = none) ∨
        (∃ id x, s.manager.sessions[id]? = some x ∧
          s'.manager.sessions = s.manager.sessions.modify id (fun x' =>
            { x' with generation := x.generation + 1, event := some s.timer.nextId }) ∧
          s.armed? a = some (renewal s.manager.family id x)) ∨
        (∃ id, s'.manager.sessions = s.manager.sessions.modify id (fun x =>
            { x with packets := x.packets + 1 }) ∧ s.armed? a = none)) := by
  cases a with
  | route d =>
      obtain ⟨p, -, rfl⟩ := act_route ha
      cases hf : s.manager.table.find? p.key with
      | some id =>
          rw [route_of_some hf]
          exact ⟨rfl, .inl ⟨rfl, rfl⟩⟩
      | none =>
          rw [route_of_none hf]
          exact ⟨rfl, .inr (.inl ⟨_, rfl, rfl, rfl⟩)⟩
  | arm d =>
      obtain ⟨p, id, created, hd, -, rfl⟩ := act_arm ha
      cases hx : s.manager.sessions[id]? with
      | none =>
          rw [renew_of_none hx]
          exact ⟨rfl, .inl ⟨rfl, by simp [armed?, hd, session?, hx]⟩⟩
      | some x =>
          rw [renew_of_some hx]
          exact ⟨rfl, .inr (.inr (.inl ⟨id, x, hx, rfl, by simp [armed?, hd, session?, hx]⟩))⟩
  | disarm d =>
      obtain ⟨p, id, created, previous, -, rfl⟩ := act_disarm ha
      exact ⟨rfl, .inl ⟨rfl, rfl⟩⟩
  | leave d =>
      obtain ⟨p, id, created, -, rfl⟩ := act_leave ha
      rw [process_snd]
      exact ⟨rfl, .inr (.inr (.inr ⟨id, rfl, rfl⟩))⟩
  | expire i =>
      obtain ⟨e, -, -, rfl⟩ := act_expire ha
      rw [expire_eq]
      exact ⟨rfl, .inl ⟨rfl, rfl⟩⟩
  | take d =>
      obtain ⟨-, ⟨p, -, rfl⟩ | ⟨-, -, rfl⟩⟩ := act_take ha <;> exact ⟨rfl, .inl ⟨rfl, rfl⟩⟩
  | decide d =>
      obtain ⟨p, id, created, -, rfl⟩ := act_decide ha
      exact ⟨rfl, .inl ⟨rfl, rfl⟩⟩
  | enter d =>
      obtain ⟨p, id, created, x, -, -, -, rfl⟩ := act_enter ha
      exact ⟨rfl, .inl ⟨rfl, rfl⟩⟩
  | reply d =>
      obtain ⟨id, ⟨-, rfl⟩ | ⟨p, rest, -, rfl⟩⟩ := act_reply ha <;> exact ⟨rfl, .inl ⟨rfl, rfl⟩⟩
  | pass =>
      obtain ⟨-, rfl⟩ := act_pass ha
      exact ⟨rfl, .inl ⟨rfl, rfl⟩⟩
  | giveUp i =>
      obtain ⟨-, rfl⟩ := act_giveUp ha
      exact ⟨rfl, .inl ⟨rfl, rfl⟩⟩
  | arrive _ | closeInbound | closeOutbound | send | setPolicy _ | tick _ | remove _ | clear
  | closePool | stopTimer =>
      obtain rfl := Option.some.inj ha
      exact ⟨rfl, .inl ⟨rfl, rfl⟩⟩

/-- How the log of armings belongs to the sessions: each generation of a session was armed once, and
the last arming of a session is that of its generation. -/
structure Logged (family : Family) (sessions : List Session) (log : List Expiry) : Prop where
  nodup : log.Nodup
  known : ∀ e ∈ log, ∃ x, sessions[e.session]? = some x ∧ e.generation ≤ x.generation
  last : ∀ id x, sessions[id]? = some x → 1 ≤ x.generation →
    (log.filter (·.session = id)).getLast? = some ⟨family, id, x.generation⟩

section Logged

variable {family : Family} {sessions : List Session} {log : List Expiry}

theorem Logged.route (l : Logged family sessions log) {y : Session} (hy : y.generation = 0) :
    Logged family (sessions ++ [y]) log where
  nodup := l.nodup
  known := by
    intro e he
    obtain ⟨x, hx, hg⟩ := l.known e he
    exact ⟨x, getElem?_concat_of_some hx, hg⟩
  last := by
    intro id x hx hg
    rw [List.getElem?_append] at hx
    split_ifs at hx with hl
    · exact l.last id x hx hg
    · obtain rfl : x = y := by simpa using List.mem_of_getElem? hx
      omega

theorem Logged.arm (l : Logged family sessions log) {id n : Nat} {x : Session}
    (hx : sessions[id]? = some x) :
    Logged family
      (sessions.modify id fun x' => { x' with generation := x.generation + 1, event := some n })
      (log ++ [renewal family id x]) where
  nodup := by
    rw [List.nodup_append]
    refine ⟨l.nodup, List.nodup_singleton _, ?_⟩
    rintro e he a ha rfl
    rw [List.mem_singleton] at ha
    subst ha
    obtain ⟨y, hy, hg⟩ := l.known _ he
    obtain rfl : x = y := Option.some.inj (hx.symm.trans hy)
    exact Nat.not_succ_le_self _ hg
  known := by
    intro e he
    rw [getElem?_modify_renew hx]
    rcases List.mem_append.mp he with he | he
    · obtain ⟨y, hy, hg⟩ := l.known e he
      split_ifs with hid
      · rw [hid] at hy
        obtain rfl : x = y := Option.some.inj (hx.symm.trans hy)
        exact ⟨_, rfl, Nat.le_succ_of_le hg⟩
      · exact ⟨y, hy, hg⟩
    · rw [List.mem_singleton] at he
      subst he
      exact ⟨_, if_pos rfl, Nat.le_refl (x.generation + 1)⟩
  last := by
    intro j y hy hg
    rw [getElem?_modify_renew hx] at hy
    rw [List.filter_append]
    split_ifs at hy with hj
    · cases hy
      subst hj
      simp [renewal]
    · have hne : (renewal family id x).session ≠ j := Ne.symm hj
      simp only [List.filter_cons, hne, decide_false, Bool.false_eq_true, if_false, List.filter_nil,
        List.append_nil]
      exact l.last j y hy hg

theorem Logged.modify (l : Logged family sessions log) {f : Session → Session} {id : Nat}
    (hf : ∀ x, (f x).key = x.key ∧ (f x).generation = x.generation ∧ (f x).event = x.event) :
    Logged family (sessions.modify id f) log where
  nodup := l.nodup
  known := by
    intro e he
    obtain ⟨x, hx, hg⟩ := l.known e he
    obtain ⟨y, hy, -, hyg, -⟩ := getElem?_modify_of_some hf hx
    exact ⟨y, hy, hyg ▸ hg⟩
  last := by
    intro j y hy hg
    obtain ⟨x, hx, -, hyg, -⟩ := some_of_getElem?_modify hf hy
    rw [hyg] at hg ⊢
    exact l.last j x hx hg

end Logged

theorem logged_act {log : List Expiry} (l : Logged s.manager.family s.manager.sessions log)
    {a : Act} (ha : act h s a = some s') :
    Logged s'.manager.family s'.manager.sessions (log ++ (s.armed? a).toList) := by
  obtain ⟨hf, ⟨hs, hn⟩ | ⟨y, hy, hs, hn⟩ | ⟨id, x, hx, hs, hn⟩ | ⟨id, hs, hn⟩⟩ := sessions_act ha
  all_goals rw [hf, hs, hn]
  · simpa using l
  · simpa using l.route hy
  · exact l.arm hx
  · rw [Option.toList_none, List.append_nil]
    exact l.modify fun _ => ⟨rfl, rfl, rfl⟩

theorem logged_run {acts : List Act} (l : Logged s.manager.family s.manager.sessions [])
    (hr : run h s acts = some s') :
    Logged s'.manager.family s'.manager.sessions (armings h s acts) := by
  induction acts using List.reverseRecOn generalizing s' with
  | nil =>
      obtain rfl := Option.some.inj hr
      exact l
  | append_singleton acts a ih =>
      obtain ⟨u, hu, ha⟩ := Run.foldlM_concat_eq_some hr
      rw [armings, Run.observe_concat armed? hu]
      exact logged_act (ih hu) ha

/-- An expiry that takes an entry from the table is the newest of all armings of that very session.
And while the pool carries expiries out, each entry whose maker has armed it has its newest arming
to come, once. -/
theorem newest_arming_ends_session (family : Family) (order : Discipline) (policy : ExpiryPolicy)
    (now : Instant) (count : Nat) (acts : List Act)
    (hr : run h (start (.new family order policy) now count) acts = some s) :
    (armings h (start (.new family order policy) now count) acts).Nodup ∧
      (∀ i s' k id, act h s (.expire i) = some s' → s.manager.table.find? k = some id →
        s'.manager.table.find? k ≠ some id →
          s'.manager.table.find? k = none ∧ ∃ e, s.expiries[i]? = some e ∧ e.session = id ∧
            ((armings h (start (.new family order policy) now count) acts).filter
              (·.session = id)).getLast? = some e) ∧
      ∀ k id, s.manager.table.find? k = some id →
        ∃ x, s.manager.sessions[id]? = some x ∧ x.key = k ∧ (s.poolClosed = false → ¬ s.Unarmed id →
          ∃ e : Expiry, e.session = id ∧ e.generation = x.generation ∧
            ((armings h (start (.new family order policy) now count) acts).filter
              (·.session = id)).getLast? = some e ∧
            (toCome s.timer s.expiries).count e = 1) := by
  have hs := (sound_start family order policy now count).run hr
  have hl := logged_run (s := start (.new family order policy) now count)
    ⟨List.nodup_nil, by simp, by simp [start, SessionManager.new]⟩ hr
  have ht := hs.tracked
  refine ⟨hl.nodup, ?_, ?_⟩
  · intro i s' k id ha hk hk'
    obtain ⟨e, hi, -, rfl⟩ := act_expire ha
    have hfind := find?_expire ht.entry e k
    split_ifs at hfind with he
    · refine ⟨hfind, e, hi, Option.some.inj (he.1.symm.trans hk), ?_⟩
      obtain ⟨hf, hg, x, hx, -⟩ := ht.known e (List.mem_append_right _ (List.mem_of_getElem? hi))
      have hid : e.session = id := Option.some.inj (he.1.symm.trans hk)
      have hgen : x.generation = e.generation := by simpa [hx] using he.2
      rw [hid] at hx
      rw [hl.last id x hx (hgen ▸ hg), ← hf, ← hid, hgen]
    · exact absurd (hfind.trans hk) hk'
  · intro k id hk
    obtain ⟨x, hx, hxk⟩ := ht.entry k id hk
    refine ⟨x, hx, hxk, fun hc hu => ⟨⟨s.manager.family, id, x.generation⟩, rfl, rfl, ?_⟩⟩
    have hg : 1 ≤ x.generation := Nat.pos_of_ne_zero fun h0 => hu (hs.unarmed id x hx h0)
    exact ⟨hl.last id x hx hg, hs.covered hc k id x hk hx hg⟩

/-- A session is made and armed, and its time runs out. -/
def outrun : List Act :=
  [.arrive ⟨.v4 .loopback 500, [7]⟩, .take 0, .route 0, .decide 0, .arm 0, .disarm 0,
    .tick (.ofSecs 3), .pass]

theorem newest_arming_ends_session_outrun :
    ∃ s s', run .silent (start (.new .v4 .fifo .default) 7 1) outrun = some s ∧
      act .silent s (.expire 0) = some s' ∧ s.poolClosed = false ∧ ¬ s.Unarmed 0 ∧
      s.manager.table.find? (.ofAddress (.v4 .loopback 500)) = some 0 ∧
      s'.manager.table.find? (.ofAddress (.v4 .loopback 500)) = none ∧
      ∃ e : Expiry, s.expiries[0]? = some e ∧ e.session = 0 ∧
        (toCome s.timer s.expiries).count e = 1 := by
  obtain ⟨s, hr⟩ : ∃ s, run .silent (start (.new .v4 .fifo .default) 7 1) outrun = some s :=
    Option.isSome_iff_exists.mp (by cbv)
  have hk : (run .silent (start (.new .v4 .fifo .default) 7 1) outrun).map (fun s =>
      (s.manager.table.find? (.ofAddress (.v4 .loopback 500)), s.poolClosed, s.stages)) =
        some (some 0, false, [.ready ⟨.v4 .loopback 500, [7]⟩ 0 true]) := by cbv
  have hk' : ((run .silent (start (.new .v4 .fifo .default) 7 1) outrun).bind fun s =>
      (act .silent s (.expire 0)).map fun s' =>
        s'.manager.table.find? (.ofAddress (.v4 .loopback 500))) = some none := by cbv
  rw [hr] at hk hk'
  simp only [Option.map_some, Option.some.injEq, Prod.mk.injEq] at hk
  obtain ⟨s', ha, hg⟩ := Option.map_eq_some_iff.mp hk'
  obtain ⟨-, h1, h2⟩ := newest_arming_ends_session .v4 .fifo .default 7 1 outrun hr
  obtain ⟨hgone, e, hi, he, hl⟩ := h1 0 s' _ _ ha hk.1 (by simp [hg])
  have hu : ¬ s.Unarmed 0 := by
    rintro ⟨d, stage, hd, hid⟩
    rw [hk.2.2] at hd
    obtain rfl := List.mem_singleton.mp (List.mem_of_getElem? hd)
    cases hid
  obtain ⟨x, -, -, hx⟩ := h2 _ _ hk.1
  obtain ⟨e', -, -, hl', hc⟩ := hx hk.2.1 hu
  obtain rfl : e = e' := Option.some.inj (hl.symm.trans hl')
  exact ⟨s, s', hr, ha, hk.2.1, hu, hk.1, hgone, e, hi, he, hc⟩

end SessionDispatch.Dispatchers
