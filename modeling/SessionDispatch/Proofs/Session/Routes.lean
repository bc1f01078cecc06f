import SessionDispatch.Proofs.Session.Newest
import SessionDispatch.Proofs.Session.Stages

/-!
# Dispatchers and their sessions

A dispatcher goes on working on the session that its record was routed to, also when the table lets
that session go meanwhile. The session has the key of the record all the time, and the replies that
the dispatcher queues go to the peer of the session. Of the sessions that were made for one key, the
table can hold the last alone.
-/

namespace SessionDispatch.Dispatchers

open SessionManager

variable {h : Handler} {s s' : Dispatchers} {a : Act} {d : Nat}

/-! ## Sessions and entries -/

def whose (x : Session) : PeerKey × SocketAddress := (x.key, x.peer)

theorem map_modify_eq {β : Type} (g : Session → β) (sessions : List Session) (id : Nat)
    {f : Session → Session} (hf : ∀ x, g (f x) = g x) :
    (sessions.modify id f).map g = sessions.map g := by
  refine List.ext_getElem? fun j => ?_
  rw [List.getElem?_map, List.getElem?_map, List.getElem?_modify]
  cases sessions[j]? with
  | none => rfl
  | some x =>
      simp only [Option.map_eq_map, Option.map_some, Option.some.injEq]
      split_ifs
      · exact hf x
      · rfl

/-- A dispatcher routes a record for whose key the table holds no session. -/
def Makes (s : Dispatchers) (a : Act) (p : Packet) : Prop :=
  ∃ d, a = .route d ∧ s.stages[d]? = some (.taken p) ∧ s.manager.table.find? p.key = none

/-- Whether an act can take a session out of the table. -/
def Act.removes : Act → Bool
  | .expire _ | .remove _ | .clear => true
  | _ => false

/-- Sessions and entries are made by routing alone, and what sessions know of their peer
never changes. -/
theorem registry_act (hs : s.Sound) (ha : act h s a = some s') :
    (s'.manager.sessions.map whose = s.manager.sessions.map whose ∧
        (∀ k id, s'.manager.table.find? k = some id → s.manager.table.find? k = some id) ∧
        (a.removes = false → s'.manager.table = s.manager.table)) ∨
      ∃ p, s.Makes a p ∧ s'.manager.table = s.manager.table.insert p.key s.manager.sessions.length ∧
        s'.manager.sessions = s.manager.sessions ++ [{ key := p.key, peer := p.peer }] := by
  cases a with
  | route d =>
      obtain ⟨p, hd, rfl⟩ := act_route ha
      cases hf : s.manager.table.find? p.key with
      | some id =>
          rw [route_of_some hf]
          exact .inl ⟨rfl, fun _ _ hk => hk, fun _ => rfl⟩
      | none =>
          rw [route_of_none hf]
          exact .inr ⟨p, ⟨d, rfl, hd, hf⟩, rfl, rfl⟩
  | arm d =>
      obtain ⟨p, id, created, -, -, rfl⟩ := act_arm ha
      cases hx : s.manager.sessions[id]? with
      | none =>
          rw [renew_of_none hx]
          exact .inl ⟨rfl, fun _ _ hk => hk, fun _ => rfl⟩
      | some x =>
          rw [renew_of_some hx]
          exact .inl ⟨map_modify_eq whose _ id fun _ => rfl, fun _ _ hk => hk, fun _ => rfl⟩
  | leave d =>
      obtain ⟨p, id, created, -, rfl⟩ := act_leave ha
      rw [process_snd]
      exact .inl ⟨map_modify_eq whose _ id fun _ => rfl, fun _ _ hk => hk, fun _ => rfl⟩
  | expire i =>
      obtain ⟨e, -, -, rfl⟩ := act_expire ha
      have hk : ∀ k id, (s.manager.expire e).1.table.find? k = some id →
          s.manager.table.find? k = some id :=
        fun _ _ => find?_of_find?_expire hs.tracked
      rw [expire_eq]
      exact .inl ⟨rfl, hk, fun hr => absurd hr.symm Bool.false_ne_true⟩
  | remove j =>
      obtain rfl := Option.some.inj ha
      refine .inl ⟨rfl, fun k id hk => ?_, fun hr => absurd hr.symm Bool.false_ne_true⟩
      have hk' := (Table.find?_erase ..).symm.trans hk
      split_ifs at hk'
      exact hk'
  | clear =>
      obtain rfl := Option.some.inj ha
      exact .inl ⟨rfl, fun k id hk => absurd hk (Table.find?_empty_ne_some k id),
        fun hr => absurd hr.symm Bool.false_ne_true⟩
  | take d =>
      obtain ⟨-, ⟨p, -, rfl⟩ | ⟨-, -, rfl⟩⟩ :=
        act_take ha <;> exact .inl ⟨rfl, fun _ _ hk => hk, fun _ => rfl⟩
  | decide d =>
      obtain ⟨p, j, created, -, rfl⟩ := act_decide ha
      exact .inl ⟨rfl, fun _ _ hk => hk, fun _ => rfl⟩
  | disarm d =>
      obtain ⟨p, j, created, previous, -, rfl⟩ := act_disarm ha
      exact .inl ⟨rfl, fun _ _ hk => hk, fun _ => rfl⟩
  | enter d =>
      obtain ⟨p, j, created, x, -, -, -, rfl⟩ := act_enter ha
      exact .inl ⟨rfl, fun _ _ hk => hk, fun _ => rfl⟩
  | reply d =>
      obtain ⟨j, ⟨-, rfl⟩ | ⟨p, rest, -, rfl⟩⟩ :=
        act_reply ha <;> exact .inl ⟨rfl, fun _ _ hk => hk, fun _ => rfl⟩
  | pass =>
      obtain ⟨-, rfl⟩ := act_pass ha
      exact .inl ⟨rfl, fun _ _ hk => hk, fun _ => rfl⟩
  | giveUp i =>
      obtain ⟨-, rfl⟩ := act_giveUp ha
      exact .inl ⟨rfl, fun _ _ hk => hk, fun _ => rfl⟩
  | arrive _ | closeInbound | closeOutbound | send | setPolicy _ | tick _ | closePool | stopTimer =>
      obtain rfl := Option.some.inj ha
      exact .inl ⟨rfl, fun _ _ hk => hk, fun _ => rfl⟩

/-- Without a removal an entry stays. -/
theorem entry_act (hs : s.Sound) {k : PeerKey} {id : Nat} (hk : s.manager.table.find? k = some id)
    (hrem : a.removes = false) (ha : act h s a = some s') : s'.manager.table.find? k = some id := by
  obtain ⟨-, -, ht⟩ | ⟨p, ⟨-, -, -, hnone⟩, ht, -⟩ := registry_act hs ha
  · rw [ht hrem, hk]
  · have hne : k ≠ p.key := fun he => by
      rw [he, hnone] at hk
      cases hk
    rw [ht, Table.find?_insert, if_neg hne, hk]

theorem getElem?_of_map_whose {sessions sessions' : List Session}
    (hw : sessions'.map whose = sessions.map whose) {id : Nat} {y : Session}
    (hy : sessions'[id]? = some y) :
    ∃ x, sessions[id]? = some x ∧ x.key = y.key ∧ x.peer = y.peer := by
  have hg : (sessions.map whose)[id]? = some (whose y) := by
    rw [← hw, List.getElem?_map, hy, Option.map_some]
  rw [List.getElem?_map] at hg
  obtain ⟨x, hx, he⟩ := Option.map_eq_some_iff.mp hg
  exact ⟨x, hx, congrArg Prod.fst he, congrArg Prod.snd he⟩

/-- No session is lost, nor does another take its place. -/
theorem session_act (hs : s.Sound) (ha : act h s a = some s') {id : Nat} {x : Session}
    (hx : s.manager.sessions[id]? = some x) :
    ∃ y, s'.manager.sessions[id]? = some y ∧ y.key = x.key ∧ y.peer = x.peer := by
  obtain ⟨hw, -⟩ | ⟨p, -, -, hn⟩ := registry_act hs ha
  · exact getElem?_of_map_whose hw.symm hx
  · exact ⟨x, hn ▸ getElem?_concat_of_some hx, rfl, rfl⟩

/-! ## What dispatchers work on -/

/-- A dispatcher's session has the key of its record, and its replies go to the peer of
the session. -/
def Stage.Fits (sessions : List Session) : Stage → Prop
  | .routed p id _ | .arming p id _ | .disarming p id _ _ | .ready p id _ | .handling p id _ =>
    ∃ x, sessions[id]? = some x ∧ x.key = p.key
  | .replying id replies => ∃ x, sessions[id]? = some x ∧ ∀ r ∈ replies, r.peer = x.peer
  | .idle | .taken _ | .ended => True

theorem Stage.Fits.act {stage : Stage} (hf : stage.Fits s.manager.sessions) (hs : s.Sound)
    (ha : act h s a = some s') : stage.Fits s'.manager.sessions := by
  cases stage with
  | idle | taken _ | ended => trivial
  | routed p id _ | arming p id _ | disarming p id _ _ | ready p id _ | handling p id _ =>
      obtain ⟨x, hid, hk⟩ := hf
      obtain ⟨y, hy, hyk, -⟩ := session_act hs ha hid
      exact ⟨y, hy, hyk.trans hk⟩
  | replying id replies =>
      obtain ⟨x, hid, hr⟩ := hf
      obtain ⟨y, hy, -, hyp⟩ := session_act hs ha hid
      exact ⟨y, hy, fun r hm => (hr r hm).trans hyp.symm⟩

/-- What every act keeps of the records and their sessions. -/
structure Routed (s : Dispatchers) : Prop where
  key : ∀ (id : Nat) (x : Session), s.manager.sessions[id]? = some x → x.key = .ofAddress x.peer
  last : ∀ k id, s.manager.table.find? k = some id →
    ∀ (j : Nat) (x : Session), s.manager.sessions[j]? = some x → x.key = k → j ≤ id
  fits : ∀ (d : Nat) (stage : Stage), s.stages[d]? = some stage → stage.Fits s.manager.sessions

theorem routed_start (family : Family) (order : Discipline) (policy : ExpiryPolicy) (now : Instant)
    (count : Nat) : (start (.new family order policy) now count).Routed where
  key := nofun
  last := nofun
  fits := by
    intro d stage hd
    obtain ⟨-, rfl⟩ := List.mem_replicate.mp (List.mem_of_getElem? hd)
    trivial

namespace Routed

/-- A dispatcher that goes on fits its session again. -/
theorem fits_of_goes (hs : s.Sound) (hr : s.Routed) (ha : Dispatchers.act h s a = some s')
    (hd : a.dispatcher? = some d) {old new : Stage} {l : Ledger} (ho : s.stages[d]? = some old)
    (hg : Goes h s a old new l) : new.Fits s'.manager.sessions := by
  have hf := (hr.fits d old ho).act hs ha
  cases hg with
  | take _ | finish _ _ | rest => trivial
  | mustArm _ | skip _ | arm _ _ | disarm | enter _ _ => exact hf
  | reply _ | drop _ =>
      obtain ⟨x, hx, hall⟩ := hf
      exact ⟨x, hx, fun r hm => hall r (List.mem_cons_of_mem _ hm)⟩
  | @route _ p =>
      obtain rfl := Option.some.inj hd
      obtain ⟨q, hq, rfl⟩ := act_route ha
      obtain rfl : p = q := Stage.taken.inj (Option.some.inj (ho.symm.trans hq))
      cases hf : s.manager.table.find? p.key with
      | some id =>
          rw [route_of_some hf]
          exact hs.tracked.entry p.key id hf
      | none =>
          rw [route_of_none hf]
          exact ⟨_, List.getElem?_concat_length, rfl⟩
  | @leave _ p id =>
      obtain ⟨x, hx, -⟩ := hr.fits d _ ho
      obtain ⟨y, hy, -, hp⟩ := session_act hs ha hx
      refine ⟨y, hy, fun r hm => ?_⟩
      rw [process_of_some hx] at hm
      obtain ⟨reply, -, rfl⟩ := List.mem_map.mp hm
      exact hp.symm

/-- The sessions that are made for a key come one after the other. -/
theorem last_act (hs : s.Sound) (hr : s.Routed) (ha : Dispatchers.act h s a = some s') {k : PeerKey}
    {id : Nat} (hk : s'.manager.table.find? k = some id) {j : Nat} {y : Session}
    (hy : s'.manager.sessions[j]? = some y) (hyk : y.key = k) : j ≤ id := by
  obtain ⟨hw, ht, -⟩ | ⟨p, -, ht, hn⟩ := registry_act hs ha
  · obtain ⟨x, hx, hxk, -⟩ := getElem?_of_map_whose hw hy
    exact hr.last k id (ht k id hk) j x hx (hxk.trans hyk)
  · rw [ht, Table.find?_insert] at hk
    rw [hn, List.getElem?_append] at hy
    split_ifs at hk hy with hkp hj hj
    · cases hk
      exact Nat.le_of_lt hj
    · cases hk
      have hl := (List.getElem?_eq_some_iff.mp hy).choose
      rw [List.length_singleton] at hl
      omega
    · exact hr.last k id hk j y hy hyk
    · obtain rfl : y = { key := p.key, peer := p.peer } := by simpa using List.mem_of_getElem? hy
      exact absurd hyk.symm hkp

theorem act (hs : s.Sound) (hr : s.Routed) (ha : Dispatchers.act h s a = some s') : s'.Routed := by
  refine ⟨?_, fun k id hk j y => hr.last_act hs ha hk, ?_⟩
  · intro id y hy
    obtain ⟨hw, -⟩ | ⟨p, -, -, hn⟩ := registry_act hs ha
    · obtain ⟨x, hx, hk, hp⟩ := getElem?_of_map_whose hw hy
      rw [← hk, ← hp]
      exact hr.key id x hx
    · rw [hn, List.getElem?_append] at hy
      split_ifs at hy
      · exact hr.key id y hy
      · obtain rfl : y = { key := p.key, peer := p.peer } := by simpa using List.mem_of_getElem? hy
        rfl
  · intro j stage hj
    obtain ⟨d, old, new, hd, ho, hg, hst⟩ | ⟨-, hst, -⟩ := stages_act ha
    · rw [hst, List.getElem?_set] at hj
      split_ifs at hj
      · cases hj
        exact hr.fits_of_goes hs ha hd ho hg
      · exact (hr.fits j stage hj).act hs ha
    · exact (hr.fits j stage (hst ▸ hj)).act hs ha

end Routed

theorem routed_run {acts : List Act} (hs : s.Sound) (hr : s.Routed)
    (hrun : run h s acts = some s') :
    s'.Sound ∧ s'.Routed :=
  Run.invariant (fun s => s.Sound ∧ s.Routed) (fun _ _ _ hs ha => ⟨hs.1.act ha, hs.2.act hs.1 ha⟩)
    ⟨hs, hr⟩ hrun

end SessionDispatch.Dispatchers
