import SessionDispatch.Proofs.Session.Pending
import SessionDispatch.Session.Service

/-!
# Sessions between calls

When a call and the pass behind it are over, nothing that the timer handed out is left to be carried
out. Every session of the table then has one armed event, and the session goes with the pass that
finds this event due.
-/

namespace SessionDispatch

namespace SessionManager

variable {m : SessionManager} {timer : Timer Expiry} {now : Instant} {h : Handler} {p : Packet}

/-- Nothing is left to be carried out, and every session of the table has been armed. -/
structure Settled (m : SessionManager) (timer : Timer Expiry) (now : Instant) : Prop where
  valid : timer.Valid now
  tracked : Tracked m.family m.table m.sessions timer []
  covered : Covered m.family m.table m.sessions timer []
  armed : ∀ k id x, m.table.find? k = some id → m.sessions[id]? = some x → 1 ≤ x.generation

/-- Under a key there is a session, whose newest event is due at an instant. -/
def Leases (m : SessionManager) (timer : Timer Expiry) (k : PeerKey) (x : Session) (due : Instant) :
    Prop :=
  ∃ id, m.table.find? k = some id ∧ m.sessions[id]? = some x ∧
    ∃ e ∈ timer.events, x.event = some e.id ∧ e.action = ⟨m.family, id, x.generation⟩ ∧ e.due = due

theorem settled_new (family : Family) (order : Discipline) (policy : ExpiryPolicy) (now : Instant) :
    (new family order policy).Settled {} now :=
  ⟨Timer.valid_new now, tracked_new, covered_new, nofun⟩

/-! ## Arming -/

section Arm

variable {id : Nat}

theorem settled_arm (v : timer.Valid now) (t : Tracked m.family m.table m.sessions timer [])
    (c : Covered m.family m.table m.sessions timer []) {x : Session} (hx : m.sessions[id]? = some x)
    (ha : ∀ k j y, m.table.find? k = some j → m.sessions[j]? = some y → j ≠ id → 1 ≤ y.generation) :
    (m.arm timer now id).1.Settled (m.arm timer now id).2 now := by
  rw [arm_of_some hx]
  refine ⟨rearm_valid v, t.arm hx v, c.arm t hx v, ?_⟩
  intro k j y hk hy
  have hy' := (getElem?_modify_renew hx j timer.nextId).symm.trans hy
  split_ifs at hy' with hj
  · cases hy'
    exact Nat.succ_pos _
  · exact ha k j y hk hy' hj

/-- A session that is armed now ends when the timeout in force has gone by. -/
theorem leases_arm (v : timer.Valid now) (t : Tracked m.family m.table m.sessions timer [])
    {k : PeerKey} {x : Session} (hk : m.table.find? k = some id) (hx : m.sessions[id]? = some x) :
    (m.arm timer now id).1.Leases (m.arm timer now id).2 k
      { x with generation := x.generation + 1, event := some timer.nextId }
        (now + m.policy.timeout) := by
  rw [arm_of_some hx]
  refine ⟨id, hk, (getElem?_modify_renew hx id timer.nextId).trans (if_pos rfl),
    .arm timer.nextId now m.policy.timeout false (renewal m.family id x), ?_, rfl, rfl, rfl⟩
  refine (mem_rearm v).mpr ⟨.inl rfl, fun hn => ?_⟩
  exact Nat.lt_irrefl _ (t.newest id x _ hx hn).1

theorem Leases.arm {k : PeerKey} {x : Session} {due : Instant} (hl : m.Leases timer k x due)
    (v : timer.Valid now) (t : Tracked m.family m.table m.sessions timer [])
    (hid : m.table.find? k ≠ some id) :
    (m.arm timer now id).1.Leases (m.arm timer now id).2 k x due := by
  cases hy : m.sessions[id]? with
  | none =>
      rw [arm_of_none hy]
      exact hl
  | some y =>
      rw [arm_of_some hy]
      obtain ⟨j, hk, hx, e, he, hev, ha, hd⟩ := hl
      have hne : id ≠ j := fun h => hid (h ▸ hk)
      refine ⟨j, hk, (List.getElem?_modify_ne _ _ hne).trans hx, e, ?_, hev, ha, hd⟩
      refine (mem_rearm v).mpr ⟨.inr he, fun hn => hne ?_⟩
      have hs := (t.newest id y e.id hy hn).2 e he rfl
      rw [ha] at hs
      exact hs.symm

end Arm

/-! ## Counting a record -/

section Count

variable {id : Nat}

theorem Settled.count (hs : m.Settled timer now) (outbound : Queue Packet) :
    ({ m.modifySession id (fun x => { x with packets := x.packets + 1 }) with outbound }
      : SessionManager).Settled timer now := by
  have hf : ∀ x : Session, ({ x with packets := x.packets + 1 } : Session).key = x.key ∧
      ({ x with packets := x.packets + 1 } : Session).generation = x.generation ∧
      ({ x with packets := x.packets + 1 } : Session).event = x.event := fun _ => ⟨rfl, rfl, rfl⟩
  refine ⟨hs.valid, hs.tracked.modify hf, hs.covered.modify hf, ?_⟩
  intro k j y hk hy
  obtain ⟨x, hx, -, hg, -⟩ := some_of_getElem?_modify hf hy
  exact hg ▸ hs.armed k j x hk hx

variable {k : PeerKey} {x : Session} {due : Instant}

theorem Leases.count (hl : m.Leases timer k x due) (hk : m.table.find? k = some id)
    (outbound : Queue Packet) :
    ({ m.modifySession id (fun x => { x with packets := x.packets + 1 }) with outbound }
      : SessionManager).Leases timer k { x with packets := x.packets + 1 } due := by
  obtain ⟨j, hj, hx, e, he, hev, ha, hd⟩ := hl
  obtain rfl : id = j := Option.some.inj (hk.symm.trans hj)
  refine ⟨id, hj, ?_, e, he, hev, ha, hd⟩
  change (m.sessions.modify id _)[id]? = _
  rw [List.getElem?_modify_eq, hx]
  rfl

theorem Leases.count_other (hl : m.Leases timer k x due) (hk : m.table.find? k ≠ some id)
    (outbound : Queue Packet) :
    ({ m.modifySession id (fun x => { x with packets := x.packets + 1 }) with outbound }
      : SessionManager).Leases timer k x due := by
  obtain ⟨j, hj, hx, he⟩ := hl
  have hne : id ≠ j := fun h => hk (h ▸ hj)
  exact ⟨j, hj, (List.getElem?_modify_ne _ _ hne).trans hx, he⟩

end Count

/-! ## The way of one record -/

/-- The timer of the session that a record goes to is armed where needed. -/
def armRouted (m : SessionManager) (timer : Timer Expiry) (now : Instant) (id : Nat)
    (created : Bool) : SessionManager × Timer Expiry :=
  if m.mustArm created then m.arm timer now id else (m, timer)

theorem dispatch_eq (m : SessionManager) (timer : Timer Expiry) (now : Instant) (h : Handler)
    (p : Packet) {id : Nat} {created : Bool} {routed : SessionManager}
    (hr : m.route p = ((id, created), routed)) :
    ∃ replies outbound metrics, m.dispatch timer now h p = (⟨created, replies⟩,
      { (routed.armRouted timer now id created).1.modifySession id
          (fun x => { x with packets := x.packets + 1 }) with outbound },
      (routed.armRouted timer now id created).2, metrics) := by
  unfold dispatch
  rw [hr]
  dsimp only
  rw [← process_snd _ h id p.payload]
  exact ⟨_, _, _, rfl⟩

theorem arm_table (m : SessionManager) (timer : Timer Expiry) (now : Instant) (id : Nat) :
    (m.arm timer now id).1.table = m.table ∧ (m.arm timer now id).1.policy = m.policy := by
  cases hx : m.sessions[id]? with
  | none =>
      rw [arm_of_none hx]
      exact ⟨rfl, rfl⟩
  | some x =>
      rw [arm_of_some hx]
      exact ⟨rfl, rfl⟩

theorem armRouted_table (m : SessionManager) (timer : Timer Expiry) (now : Instant) (id : Nat)
    (created : Bool) : (m.armRouted timer now id created).1.table = m.table ∧
      (m.armRouted timer now id created).1.policy = m.policy := by
  unfold armRouted
  split_ifs
  · exact arm_table m timer now id
  · exact ⟨rfl, rfl⟩

theorem nextId_armRouted {id : Nat} {x : Session} (hx : m.sessions[id]? = some x) (created : Bool) :
    (m.armRouted timer now id created).2.nextId =
      timer.nextId + if m.mustArm created then 1 else 0 := by
  unfold armRouted
  split_ifs
  · rw [arm_of_some hx]
    exact withdraw_nextId ..
  · rfl

section Dispatch

variable {k : PeerKey} {x : Session} {due : Instant}

theorem dispatch_created (m : SessionManager) (timer : Timer Expiry) (now : Instant) (h : Handler)
    (p : Packet) : (m.dispatch timer now h p).1.created = (m.table.find? p.key).isNone ∧
      (m.dispatch timer now h p).2.1.policy = m.policy := by
  cases hf : m.table.find? p.key with
  | none =>
      obtain ⟨_, _, _, hd⟩ := dispatch_eq m timer now h p (route_of_none hf)
      rw [hd]
      exact ⟨rfl, (armRouted_table ..).2⟩
  | some id =>
      obtain ⟨_, _, _, hd⟩ := dispatch_eq m timer now h p (route_of_some hf)
      rw [hd]
      exact ⟨rfl, (armRouted_table ..).2⟩

/-- A record adds an entry under its own key at most. -/
theorem find?_dispatch_of_ne (hk : k ≠ p.key) :
    (m.dispatch timer now h p).2.1.table.find? k = m.table.find? k := by
  cases hf : m.table.find? p.key with
  | none =>
      obtain ⟨_, _, _, hd⟩ := dispatch_eq m timer now h p (route_of_none hf)
      rw [hd]
      change ((armRouted _ timer now _ true).1.table).find? k = _
      rw [(armRouted_table ..).1, Table.find?_insert, if_neg hk]
  | some id =>
      obtain ⟨_, _, _, hd⟩ := dispatch_eq m timer now h p (route_of_some hf)
      rw [hd]
      exact congrArg (Table.find? · k) (armRouted_table ..).1

/-- A record arms one event if it makes a session or slides an end, and else none. -/
theorem nextId_dispatch (hs : m.Settled timer now) (h : Handler) (p : Packet) :
    (m.dispatch timer now h p).2.2.1.nextId =
      timer.nextId + if m.mustArm (m.table.find? p.key).isNone then 1 else 0 := by
  cases hf : m.table.find? p.key with
  | none =>
      obtain ⟨_, _, _, hd⟩ := dispatch_eq m timer now h p (route_of_none hf)
      rw [hd]
      exact nextId_armRouted List.getElem?_concat_length true
  | some id =>
      obtain ⟨x, hx, -⟩ := hs.tracked.entry p.key id hf
      obtain ⟨_, _, _, hd⟩ := dispatch_eq m timer now h p (route_of_some hf)
      rw [hd]
      exact nextId_armRouted hx false

theorem Settled.dispatch (hs : m.Settled timer now) (h : Handler) (p : Packet) :
    (m.dispatch timer now h p).2.1.Settled (m.dispatch timer now h p).2.2.1 now := by
  cases hf : m.table.find? p.key with
  | none =>
      obtain ⟨_, outbound, _, hd⟩ := dispatch_eq m timer now h p (route_of_none hf)
      have t := hs.tracked.route (k := p.key) (y := { key := p.key, peer := p.peer }) rfl rfl
      have c := hs.covered.route hs.tracked (k := p.key) (y := { key := p.key, peer := p.peer }) rfl
      rw [hd, armRouted, if_pos (show mustArm _ true = true from rfl)]
      refine Settled.count (settled_arm hs.valid t c List.getElem?_concat_length ?_) outbound
      intro k j y hk hy hj
      rw [Table.find?_insert] at hk
      split_ifs at hk with hkp
      · exact absurd (Option.some.inj hk).symm hj
      · obtain ⟨y', hy', -⟩ := hs.tracked.entry k j hk
        obtain rfl : y' = y := Option.some.inj ((getElem?_concat_of_some hy').symm.trans hy)
        exact hs.armed k j y' hk hy'
  | some id =>
      obtain ⟨x, hx, -⟩ := hs.tracked.entry p.key id hf
      obtain ⟨_, outbound, _, hd⟩ := dispatch_eq m timer now h p (route_of_some hf)
      rw [hd, armRouted]
      split_ifs
      · refine Settled.count (settled_arm hs.valid hs.tracked hs.covered hx ?_) outbound
        intro k j y hk hy _
        exact hs.armed k j y hk hy
      · exact hs.count outbound

/-- A record that finds no session makes one, which is armed at once. -/
theorem leases_dispatch (hs : m.Settled timer now) (h : Handler) (hf : m.table.find? p.key = none) :
    (m.dispatch timer now h p).2.1.Leases (m.dispatch timer now h p).2.2.1 p.key
      ⟨p.key, p.peer, 1, 1, some timer.nextId⟩ (now + m.policy.timeout) := by
  obtain ⟨_, outbound, _, hd⟩ := dispatch_eq m timer now h p (route_of_none hf)
  have t := hs.tracked.route (k := p.key) (y := { key := p.key, peer := p.peer }) rfl rfl
  have hk : (m.table.insert p.key m.sessions.length).find? p.key = some m.sessions.length := by
    rw [Table.find?_insert, if_pos rfl]
  rw [hd, armRouted, if_pos (show mustArm _ true = true from rfl)]
  refine Leases.count (x := ⟨p.key, p.peer, 0, 1, some timer.nextId⟩) (leases_arm
    (x := { key := p.key, peer := p.peer }) hs.valid t hk List.getElem?_concat_length) ?_ outbound
  rw [(arm_table ..).1]
  exact hk

/-- A record that finds a session arms it anew if expiry slides, and else leaves its end as
it is. -/
theorem Leases.dispatch (hs : m.Settled timer now) (h : Handler) (hl : m.Leases timer p.key x due) :
    (m.dispatch timer now h p).2.1.Leases (m.dispatch timer now h p).2.2.1 p.key
      (if m.policy.mode = .sliding then
        { x with
          packets := x.packets + 1
          generation := x.generation + 1
          event := some timer.nextId }
      else { x with packets := x.packets + 1 })
      (if m.policy.mode = .sliding then now + m.policy.timeout else due) := by
  obtain ⟨id, hk, hx, -⟩ := id hl
  obtain ⟨_, outbound, _, hd⟩ := dispatch_eq m timer now h p (route_of_some hk)
  rw [hd, armRouted]
  by_cases hmode : m.policy.mode = .sliding
  · have hmust : m.mustArm false = true := by simpa [mustArm] using hmode
    rw [if_pos hmust, if_pos hmode, if_pos hmode]
    refine (leases_arm hs.valid hs.tracked hk hx).count ?_ outbound
    rw [(arm_table ..).1]
    exact hk
  · have hmust : ¬ m.mustArm false = true := by simpa [mustArm] using hmode
    rw [if_neg hmust, if_neg hmode, if_neg hmode]
    exact hl.count hk outbound

theorem Leases.dispatch_other (hs : m.Settled timer now) (h : Handler) (hl : m.Leases timer k x due)
    (hp : p.key ≠ k) :
    (m.dispatch timer now h p).2.1.Leases (m.dispatch timer now h p).2.2.1 k x due := by
  have hstep : ∀ {routed : SessionManager} {id : Nat} {created : Bool},
      m.route p = ((id, created), routed) → routed.Leases timer k x due →
      Tracked routed.family routed.table routed.sessions timer [] → routed.table.find? k ≠ some id →
      (m.dispatch timer now h p).2.1.Leases (m.dispatch timer now h p).2.2.1 k x due := by
    intro routed id created hr hl t hid
    obtain ⟨_, outbound, _, hd⟩ := dispatch_eq m timer now h p hr
    rw [hd]
    refine Leases.count_other ?_ ?_ outbound
    · unfold armRouted
      split_ifs
      · exact hl.arm hs.valid t hid
      · exact hl
    · rw [(armRouted_table ..).1]
      exact hid
  obtain ⟨j, hk, hx, he⟩ := hl
  cases hf : m.table.find? p.key with
  | none =>
      have hk' : (m.table.insert p.key m.sessions.length).find? k = some j := by
        rw [Table.find?_insert, if_neg (Ne.symm hp)]
        exact hk
      refine hstep (route_of_none hf) ⟨j, hk', getElem?_concat_of_some hx, he⟩
        (hs.tracked.route rfl rfl) ?_
      rw [hk']
      intro hj
      obtain ⟨hlt, -⟩ := List.getElem?_eq_some_iff.mp hx
      exact absurd (Option.some.inj hj) (Nat.ne_of_lt hlt)
  | some id =>
      refine hstep (route_of_some hf) ⟨j, hk, hx, he⟩ hs.tracked ?_
      intro hid
      obtain ⟨y, hy, hyk⟩ := hs.tracked.entry k id hid
      obtain ⟨z, hz, hzk⟩ := hs.tracked.entry p.key id hf
      obtain rfl : y = z := Option.some.inj (hy.symm.trans hz)
      exact hp (hzk.symm.trans hyk)

end Dispatch

/-! ## Carrying out what a pass hands out -/

def expireAll (m : SessionManager) (flying : List Expiry) : SessionManager :=
  flying.foldl (fun m e => (m.expire e).1) m

theorem expireAll_eq (m : SessionManager) (flying : List Expiry) :
    m.expireAll flying = { m with table := (m.expireAll flying).table } := by
  induction flying generalizing m with
  | nil => rfl
  | cons e flying ih =>
      unfold expireAll at ih ⊢
      rw [List.foldl_cons, ih, expire_eq]

/-- The entries whose newest expiry is carried out go, and all others stay. -/
theorem find?_expireAll
    (hm : ∀ k id, m.table.find? k = some id → ∃ x, m.sessions[id]? = some x ∧ x.key = k)
    (flying : List Expiry) (k : PeerKey) :
    (m.expireAll flying).table.find? k =
      if ∃ e ∈ flying, m.table.find? k = some e.session ∧
          (m.sessions[e.session]?).map (·.generation) = some e.generation then none
      else m.table.find? k := by
  induction flying generalizing m with
  | nil => simp [expireAll]
  | cons e flying ih =>
      have hfind := find?_expire hm e
      have heq := expire_eq m e
      have hm' : ∀ k id, (m.expire e).1.table.find? k = some id →
          ∃ x, (m.expire e).1.sessions[id]? = some x ∧ x.key = k := by
        intro j id hj
        rw [hfind] at hj
        split_ifs at hj
        rw [heq]
        exact hm j id hj
      have hs : (m.expire e).1.sessions = m.sessions := by rw [heq]
      change ((m.expire e).1.expireAll flying).table.find? k = _
      rw [ih hm', hfind k, hs]
      simp only [List.exists_mem_cons_iff]
      by_cases he : m.table.find? k = some e.session ∧
          (m.sessions[e.session]?).map (·.generation) = some e.generation
      · rw [if_pos he, ite_self]
        exact (if_pos (.inl he)).symm
      · rw [if_neg he]
        exact if_congr ⟨.inr, fun h => h.resolve_left he⟩ rfl rfl

theorem find?_of_find?_expireAll {flying : List Expiry}
    (t : Tracked m.family m.table m.sessions timer flying) {k : PeerKey} {id : Nat}
    (h : (m.expireAll flying).table.find? k = some id) : m.table.find? k = some id := by
  rw [find?_expireAll t.entry] at h
  split_ifs at h
  exact h

theorem Tracked.expireAll {flying : List Expiry}
    (t : Tracked m.family m.table m.sessions timer flying) :
    Tracked m.family (m.expireAll flying).table m.sessions timer [] where
  entry := fun k id hk => t.entry k id (find?_of_find?_expireAll t hk)
  oneShot := t.oneShot
  known := fun e he => t.known e (List.mem_append_left _ (by simpa [toCome] using he))
  newest := t.newest

theorem Covered.expireAll {flying : List Expiry}
    (c : Covered m.family m.table m.sessions timer flying)
    (t : Tracked m.family m.table m.sessions timer flying) :
    Covered m.family (m.expireAll flying).table m.sessions timer [] := by
  intro k id x hk hx hg
  have hold := find?_of_find?_expireAll t hk
  have hne : ⟨m.family, id, x.generation⟩ ∉ flying := by
    intro he
    rw [find?_expireAll t.entry, if_pos ⟨_, he, hold, by simp [hx]⟩] at hk
    cases hk
  have hc := c k id x hold hx hg
  rw [toCome, List.count_append, List.count_eq_zero_of_not_mem hne] at hc
  rw [toCome, List.append_nil]
  exact hc

/-- No other event is armed for what the newest event of a session is armed for. -/
theorem Covered.eq_of_action (c : Covered m.family m.table m.sessions timer []) {k : PeerKey}
    {id : Nat} {x : Session} (hk : m.table.find? k = some id) (hx : m.sessions[id]? = some x)
    (hg : 1 ≤ x.generation) {e e' : Timer.Event Expiry} (he : e ∈ timer.events)
    (he' : e' ∈ timer.events) (ha : e.action = ⟨m.family, id, x.generation⟩)
    (ha' : e'.action = ⟨m.family, id, x.generation⟩) :
    e = e' := by
  have hc := c k id x hk hx hg
  rw [toCome, List.append_nil, List.count_eq_countP, List.countP_map, List.countP_eq_length_filter]
    at hc
  obtain ⟨y, hy⟩ := List.length_eq_one_iff.mp hc
  have hmem : ∀ e ∈ timer.events, e.action = ⟨m.family, id, x.generation⟩ → e = y := by
    intro e he ha
    refine List.mem_singleton.mp (hy ▸ List.mem_filter.mpr ⟨he, ?_⟩)
    simpa using ha
  exact (hmem e he ha).trans (hmem e' he' ha').symm

/-! ## Passes -/

/-- The sessions after a pass of the timer and all that it hands out. -/
def settle (m : SessionManager) (timer : Timer Expiry) (now : Instant) : SessionManager :=
  m.expireAll ((timer.pass now).1.map (·.action))

theorem Settled.settle (hs : m.Settled timer now) :
    (m.settle timer now).Settled (timer.pass now).2 now := by
  have t := hs.tracked.pass hs.valid
  have c := hs.covered.pass hs.valid hs.tracked
  unfold SessionManager.settle
  rw [expireAll_eq]
  refine ⟨hs.valid.pass, t.expireAll, c.expireAll t, ?_⟩
  intro k id x hk hx
  exact hs.armed k id x (find?_of_find?_expireAll t hk) hx

theorem find?_settle (hs : m.Settled timer now) (k : PeerKey) :
    (m.settle timer now).table.find? k =
      if ∃ e ∈ timer.events, e.due ≤ now ∧ m.table.find? k = some e.action.session ∧
          (m.sessions[e.action.session]?).map (·.generation) = some e.action.generation then none
      else m.table.find? k := by
  unfold settle
  rw [find?_expireAll hs.tracked.entry]
  refine if_congr ?_ rfl rfl
  constructor
  · rintro ⟨a, ha, hk, hg⟩
    obtain ⟨y, hy, rfl⟩ := List.mem_map.mp ha
    obtain ⟨e, he, hd, rfl⟩ := hs.valid.mem_due.mp hy
    rw [Timer.Event.advance_action] at hk hg
    exact ⟨e, he, hd, hk, hg⟩
  · rintro ⟨e, he, hd, hk, hg⟩
    refine ⟨e.action, List.mem_map.mpr ⟨_, hs.valid.mem_due.mpr ⟨e, he, hd, rfl⟩, ?_⟩, hk, hg⟩
    exact Timer.Event.advance_action e now

theorem find?_settle_of_none (hs : m.Settled timer now) {k : PeerKey}
    (hk : m.table.find? k = none) :
    (m.settle timer now).table.find? k = none := by
  rw [find?_settle hs, hk, ite_self]

section Settle

variable {k : PeerKey} {x : Session} {due : Instant}

/-- The pass that finds the newest event of a session due takes the session from the table. -/
theorem Leases.find?_settle_of_due (hs : m.Settled timer now) (hl : m.Leases timer k x due)
    (hd : due ≤ now) : (m.settle timer now).table.find? k = none := by
  obtain ⟨id, hk, hx, e, he, -, ha, rfl⟩ := hl
  rw [find?_settle hs, if_pos]
  refine ⟨e, he, hd, ?_⟩
  rw [ha, hx]
  exact ⟨hk, rfl⟩

/-- All other passes leave the session and its event as they are. -/
theorem Leases.settle (hs : m.Settled timer now) (hl : m.Leases timer k x due) (hd : now < due) :
    (m.settle timer now).Leases (timer.pass now).2 k x due := by
  obtain ⟨id, hk, hx, e, he, hev, ha, rfl⟩ := hl
  have hk' : (m.settle timer now).table.find? k = some id := by
    rw [find?_settle hs, if_neg, hk]
    rintro ⟨e', he', hd', hk', hg'⟩
    have hid : e'.action.session = id := Option.some.inj (hk'.symm.trans hk)
    have hgen : x.generation = e'.action.generation := by simpa [hid, hx] using hg'
    have hfam := (hs.tracked.known e'.action (List.mem_append_left _ (List.mem_map_of_mem he'))).1
    have ha' : e'.action = ⟨m.family, id, x.generation⟩ := by
      rw [← hfam, ← hid, hgen]
    obtain rfl := hs.covered.eq_of_action hk hx (hs.armed k id x hk hx) he he' ha ha'
    exact Nat.not_le_of_lt hd hd'
  unfold SessionManager.settle at hk' ⊢
  rw [expireAll_eq] at hk' ⊢
  refine ⟨id, hk', hx, (e.advance now).2, hs.valid.mem_left.mpr ⟨e, he, .inr hd, rfl⟩, ?_, ?_, ?_⟩
  · rw [Timer.Event.advance_id]
    exact hev
  · rw [Timer.Event.advance_action]
    exact ha
  · exact Timer.Event.due_advance (hs.valid.checkpoint_le e he) hd

end Settle

end SessionManager

end SessionDispatch
