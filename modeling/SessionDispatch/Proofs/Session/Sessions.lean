import SessionDispatch.Proofs.Timer.Pass
import SessionDispatch.Session.Manager

/-!
# What one operation does to the sessions

Equations for routing, arming, processing and expiring. Routing changes the table and adds at most
one session, arming and processing change one session in place, and expiring changes the table
alone.
-/

namespace SessionDispatch.SessionManager

variable {m : SessionManager}

theorem route_of_some {p : Packet} {id : Nat} (h : m.table.find? p.key = some id) :
    m.route p = ((id, false), m) := by
  unfold route
  rw [Table.findOrInsert_of_some h]
  rfl

theorem route_of_none {p : Packet} (h : m.table.find? p.key = none) :
    m.route p = ((m.sessions.length, true), { m with
      table := m.table.insert p.key m.sessions.length
      sessions := m.sessions ++ [{ key := p.key, peer := p.peer }] }) := by
  unfold route
  rw [Table.findOrInsert_of_none h]
  rfl

theorem renew_of_none {timer : Timer Expiry} {now : Instant} {id : Nat}
    (h : m.sessions[id]? = none) :
    m.renew timer now id = (none, m, timer) := by
  unfold renew session?
  rw [h]

theorem renew_of_some {timer : Timer Expiry} {now : Instant} {id : Nat} {x : Session}
    (h : m.sessions[id]? = some x) :
    m.renew timer now id =
      (x.event,
       m.modifySession id fun x' =>
        { x' with generation := x.generation + 1, event := some timer.nextId },
       (timer.schedule now m.policy.timeout false ⟨m.family, id, x.generation + 1⟩).2) := by
  unfold renew session?
  rw [h]
  rfl

theorem arm_of_none {timer : Timer Expiry} {now : Instant} {id : Nat} (h : m.sessions[id]? = none) :
    m.arm timer now id = (m, timer) := by
  unfold arm
  rw [renew_of_none h]
  rfl

theorem arm_of_some {timer : Timer Expiry} {now : Instant} {id : Nat} {x : Session}
    (h : m.sessions[id]? = some x) :
    m.arm timer now id =
      (m.modifySession id fun x' =>
        { x' with generation := x.generation + 1, event := some timer.nextId },
       withdraw (timer.schedule now m.policy.timeout false ⟨m.family, id, x.generation + 1⟩).2
        x.event) := by
  unfold arm
  rw [renew_of_some h]

theorem process_of_some {h : Handler} {id : Nat} {payload : List UInt8} {x : Session}
    (hs : m.sessions[id]? = some x) :
    m.process h id payload =
      ((h x.key payload).map fun reply => ⟨x.peer, reply⟩,
        m.modifySession id fun x => { x with packets := x.packets + 1 }) := by
  unfold process session?
  rw [hs]

/-- Processing counts the record, and else changes nothing. -/
theorem process_snd (m : SessionManager) (h : Handler) (id : Nat) (payload : List UInt8) :
    (m.process h id payload).2 =
    m.modifySession id fun x => { x with packets := x.packets + 1 } := by
  cases hs : m.sessions[id]? with
  | none =>
      have hm : (m.process h id payload).2 = m := by
        unfold process session?
        rw [hs]
      rw [hm, modifySession, List.modify_eq_self (List.getElem?_eq_none_iff.mp hs)]
  | some x => rw [process_of_some hs]

/-- An expiry changes nothing but the table. -/
theorem expire_eq (m : SessionManager) (e : Expiry) :
    (m.expire e).1 = { m with table := (m.expire e).1.table } := by
  unfold expire
  split
  · rfl
  · split <;> rfl

/-- A record leaves the family, the policy and the inbound queue alone, whatever becomes of it, and
of its replies the outbound queue takes what it takes. The timer goes on if it did. -/
theorem dispatch_frame (m : SessionManager) (timer : Timer Expiry) (now : Instant) (h : Handler)
    (p : Packet) :
    (∃ table sessions replies, (m.dispatch timer now h p).2.1 =
        { m with table, sessions }.reply replies) ∧
      (m.dispatch timer now h p).2.2.1.stopped = timer.stopped := by
  have harm : ∀ (m : SessionManager) (id : Nat),
      (∃ sessions, (m.arm timer now id).1 = { m with sessions }) ∧
      (m.arm timer now id).2.stopped = timer.stopped := by
    intro m id
    cases hs : m.sessions[id]? with
    | none =>
        rw [arm_of_none hs]
        exact ⟨⟨m.sessions, rfl⟩, rfl⟩
    | some x =>
        rw [arm_of_some hs]
        refine ⟨⟨_, rfl⟩, ?_⟩
        cases x.event <;> rfl
  obtain ⟨id, created, table, sessions, hroute⟩ : ∃ id created table sessions,
      m.route p = ((id, created), { m with table, sessions }) := ⟨_, _, _, _, rfl⟩
  unfold dispatch
  rw [hroute]
  dsimp only
  rw [process_snd]
  split_ifs
  · obtain ⟨⟨sessions', hm⟩, ht⟩ := harm { m with table, sessions } id
    rw [hm]
    exact ⟨⟨table, _, _, rfl⟩, ht⟩
  · exact ⟨⟨table, _, _, rfl⟩, rfl⟩

/-- An expiry removes the entry of its own session while that is of the same generation. -/
theorem find?_expire
    (hm : ∀ k id, m.table.find? k = some id → ∃ x, m.sessions[id]? = some x ∧ x.key = k)
    (e : Expiry) (k : PeerKey) :
    (m.expire e).1.table.find? k =
      if m.table.find? k = some e.session ∧
          (m.sessions[e.session]?).map (·.generation) = some e.generation then none
      else m.table.find? k := by
  unfold expire session?
  cases hx : m.sessions[e.session]? with
  | none => simp
  | some x =>
      dsimp only
      split
      · rename_i hg
        rw [Table.find?_eraseIfSame]
        refine if_congr ?_ rfl rfl
        constructor
        · rintro ⟨rfl, h⟩
          exact ⟨h, by simp [hg]⟩
        · rintro ⟨h, -⟩
          obtain ⟨y, hy, rfl⟩ := hm k e.session h
          obtain rfl : x = y := Option.some.inj (hx.symm.trans hy)
          exact ⟨rfl, h⟩
      · rename_i hg
        simp [hg]

end SessionDispatch.SessionManager
