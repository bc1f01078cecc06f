import SessionDispatch.Proofs.Address.Keys
import SessionDispatch.Proofs.Queue.Taking
import SessionDispatch.Proofs.Session.Routes

/-!
# Where replies go

Replies go to the address of the record that made the session. It has the host and the port of every
record that comes to the session, so peers with different hosts or ports do not get each other's
replies. Flow label and scope are those of the first record.
-/

namespace SessionDispatch

/-- An IPv4 address is known by host and port. -/
theorem SocketAddress.eq_of_v4 {a b : SocketAddress} (hhost : a.host = b.host)
    (hport : a.port = b.port) (hb : b.family = .v4) : a = b := by
  cases b with
  | v6 ip port flow scope => cases hb
  | v4 ip port =>
      cases a with
      | v6 ip' port' flow scope => cases hhost
      | v4 ip' port' =>
          obtain rfl := Host.v4.inj hhost
          obtain rfl : port' = port := hport
          rfl

namespace SessionManager

open Dispatchers

variable {m routed : SessionManager} {timer : Timer Expiry} {now : Instant} {h : Handler}
variable {p : Packet}

/-- Arming a session changes neither what sessions know of their peer nor the queues. -/
theorem arm_whose (m : SessionManager) (timer : Timer Expiry) (now : Instant) (id : Nat) :
    (m.arm timer now id).1.sessions.map whose = m.sessions.map whose ∧
      (m.arm timer now id).1.outbound = m.outbound := by
  cases hx : m.sessions[id]? with
  | none =>
      rw [arm_of_none hx]
      exact ⟨rfl, rfl⟩
  | some x =>
      rw [arm_of_some hx]
      exact ⟨map_modify_eq whose _ id fun _ => rfl, rfl⟩

/-- Whether or not the timer of a session is armed, the handler is asked for the session's key, and
what it gives goes to the session's peer. -/
theorem process_armed (timer : Timer Expiry) (now : Instant) (h : Handler) {id : Nat} {x : Session}
    (hx : m.sessions[id]? = some x) (created : Bool) (payload : List UInt8) :
    ((if m.mustArm created then m.arm timer now id else (m, timer)).1.process h id payload).1 =
        (h x.key payload).map (Packet.mk x.peer) ∧
      (if m.mustArm created then m.arm timer now id else (m, timer)).1.outbound = m.outbound := by
  obtain ⟨armed, harmed, hw, ho⟩ : ∃ armed, armed = (if m.mustArm created then m.arm timer now id
      else (m, timer)) ∧ armed.1.sessions.map whose = m.sessions.map whose ∧
        armed.1.outbound = m.outbound := by
    refine ⟨_, rfl, ?_⟩
    split_ifs
    · exact arm_whose m timer now id
    · exact ⟨rfl, rfl⟩
  obtain ⟨y, hy, hkey, hpeer⟩ := getElem?_of_map_whose hw.symm hx
  rw [← harmed, process_of_some hy, hkey, hpeer]
  exact ⟨rfl, ho⟩

/-- The replies to a record go to the peer of the session that it was routed to. -/
theorem dispatch_outbound {id : Nat} {created : Bool} (hr : m.route p = ((id, created), routed))
    (ho : routed.outbound = m.outbound) {x : Session} (hx : routed.sessions[id]? = some x) :
    (m.dispatch timer now h p).2.1.outbound =
      if m.outbound.closed then m.outbound
      else { m.outbound
        with items := m.outbound.items ++ (h x.key p.payload).map (Packet.mk x.peer) } := by
  obtain ⟨hreplies, hout⟩ := process_armed timer now h hx created p.payload
  unfold dispatch
  rw [hr]
  dsimp only
  rw [hreplies, process_snd]
  change List.foldl _ (ite _ _ _ : SessionManager × Timer Expiry).1.outbound _ = _
  rw [hout, ho, Queue.foldl_push]

end SessionManager

namespace Dispatchers

open SessionManager

variable {h : Handler} {s s' : Dispatchers} {acts : List Act}

/-- No session's peer ever changes. -/
theorem session_run (hs : s.Sound) (hr : run h s acts = some s') {id : Nat} {x : Session}
    (hx : s.manager.sessions[id]? = some x) :
    ∃ y, s'.manager.sessions[id]? = some y ∧ y.key = x.key ∧ y.peer = x.peer := by
  refine (Run.invariant (fun t => t.Sound ∧ ∃ y, t.manager.sessions[id]? = some y ∧ y.key = x.key ∧
    y.peer = x.peer)
    ?_ ⟨hs, x, hx, rfl, rfl⟩ hr).2
  rintro t a t' ⟨ht, y, hy, hkey, hpeer⟩ ha
  obtain ⟨z, hz, hzk, hzp⟩ := session_act ht ha hy
  exact ⟨ht.act ha, z, hz, hzk.trans hkey, hzp.trans hpeer⟩

/-- The session that a record is routed to has the key of the record, and is made for its peer if
there was none. -/
theorem route_session (hs : s.Sound) (p : Packet) :
    ∃ (id : Nat) (created : Bool) (m : SessionManager) (x : Session),
      s.manager.route p = ((id, created), m) ∧ m.outbound = s.manager.outbound ∧
        m.sessions[id]? = some x ∧
        x.key = p.key ∧ (created = true → x.peer = p.peer) ∧
          (created = false → s.manager.find? p.key = some x) := by
  cases hf : s.manager.table.find? p.key with
  | some id =>
      obtain ⟨x, hx, hk⟩ := hs.tracked.entry p.key id hf
      refine ⟨id, false, _, x, route_of_some hf, rfl, hx, hk, nofun, fun _ => ?_⟩
      rw [find?, hf]
      exact hx
  | none =>
      exact ⟨_, true, _, _, route_of_none hf, rfl, List.getElem?_concat_length, rfl, fun _ => rfl,
        nofun⟩

/-- An address has the host and the port of a record's sender, and is the very address if that is
all there is to it. -/
structure Reaches (peer : SocketAddress) (p : Packet) : Prop where
  key : .ofAddress peer = p.key
  host : peer.host = p.peer.host
  port : peer.port = p.peer.port
  v4 : p.peer.family = .v4 → peer = p.peer

theorem reaches_of_key {peer : SocketAddress} {p : Packet} (hkey : .ofAddress peer = p.key) :
    Reaches peer p := by
  obtain ⟨hhost, hport⟩ := PeerKey.ofAddress_eq_iff.mp hkey
  exact ⟨hkey, hhost, hport, SocketAddress.eq_of_v4 hhost hport⟩

/-- All replies to a record go to one address, which has the host and the port of the record's
sender and belongs to the session: that of the record which made it. -/
theorem replies_reach_sender (h : Handler) (family : Family) (order : Discipline)
    (policy : ExpiryPolicy) (now : Instant) (count : Nat) (acts : List Act)
    (hr : run h (start (.new family order policy) now count) acts = some s) :
    (∀ (timer : Timer Expiry) (t : Instant) (p : Packet), ∃ peer : SocketAddress, Reaches peer p ∧
      ((s.manager.dispatch timer t h p).1.created = true → peer = p.peer) ∧
      ((s.manager.dispatch timer t h p).1.created = false →
        ∃ x, s.manager.find? p.key = some x ∧ peer = x.peer) ∧
      (s.manager.dispatch timer t h p).2.1.outbound =
        if s.manager.outbound.closed then s.manager.outbound
        else { s.manager.outbound with
          items := s.manager.outbound.items ++ (h p.key p.payload).map (Packet.mk peer) }) ∧
    (∀ (d : Nat) (p : Packet) (id : Nat) (created : Bool) (s' : Dispatchers),
      s.stages[d]? = some (.handling p id created) → act h s (.leave d) = some s' →
        ∃ x, s.manager.sessions[id]? = some x ∧ Reaches x.peer p ∧
          s'.stages[d]? = some (.replying id ((h p.key p.payload).map (Packet.mk x.peer)))) ∧
    ∀ (more : List Act) (s' : Dispatchers) (id : Nat) (x : Session), run h s more = some s' →
      s.manager.sessions[id]? = some x → ∃ y, s'.manager.sessions[id]? = some y ∧
        y.peer = x.peer := by
  obtain ⟨hs, hrouted⟩ := routed_run (sound_start ..) (routed_start ..) hr
  refine ⟨fun timer t p => ?_, fun d p id created s' hd ha => ?_, fun more s' id x hmore hx => ?_⟩
  · obtain ⟨id, created, m, x, hroute, ho, hx, hkey, hnew, hold⟩ := route_session hs p
    have hcreated : (s.manager.dispatch timer t h p).1.created = created := by
      unfold SessionManager.dispatch
      rw [hroute]
    have hpeer : .ofAddress x.peer = p.key := by
      cases created with
      | true => exact congrArg PeerKey.ofAddress (hnew rfl)
      | false =>
          obtain ⟨j, -, hj⟩ := Option.bind_eq_some_iff.mp (hold rfl)
          exact (hrouted.key j x hj).symm.trans hkey
    rw [hcreated, dispatch_outbound hroute ho hx, hkey]
    exact ⟨x.peer, reaches_of_key hpeer, hnew, fun hc => ⟨x, hold hc, rfl⟩, rfl⟩
  · obtain ⟨x, hx, hkey⟩ := hrouted.fits d _ hd
    have hl := (List.getElem?_eq_some_iff.mp hd).choose
    obtain ⟨q, j, created', hq, rfl⟩ := act_leave ha
    rw [hd] at hq
    cases hq
    refine ⟨x, hx, reaches_of_key ((hrouted.key id x hx).symm.trans hkey), ?_⟩
    rw [process_of_some hx, hkey]
    exact List.getElem?_set_self hl
  · obtain ⟨y, hy, -, hpeer⟩ := session_run hs hmore hx
    exact ⟨y, hy, hpeer⟩

/-- One peer of a local network, under two scopes. -/
def linkLocal (scope : UInt32) : SocketAddress := .v6 (.ofParts [0xfe80] [1]) 5 0 scope

def firstScope : List Act :=
  [.arrive ⟨linkLocal 1, [1]⟩, .take 0, .route 0, .decide 0, .arm 0, .disarm 0, .enter 0, .leave 0,
    .reply 0, .reply 0, .send]

theorem replies_reach_sender_firstScope :
    ∃ s peer, run .echo (start (.new .v6 .fifo .default) 7 1) firstScope = some s ∧
      Reaches peer ⟨linkLocal 2, [2]⟩ ∧
      (s.manager.dispatch s.timer s.now .echo ⟨linkLocal 2, [2]⟩).2.1.outbound.items =
        [⟨peer, [2]⟩] := by
  obtain ⟨s, hr⟩ : ∃ s, run .echo (start (.new .v6 .fifo .default) 7 1) firstScope = some s :=
    Option.isSome_iff_exists.mp (by cbv)
  have hqueue : (run .echo (start (.new .v6 .fifo .default) 7 1) firstScope).map (fun s =>
      (s.manager.outbound.closed, s.manager.outbound.items)) = some (false, []) := by cbv
  rw [hr, Option.map_some, Option.some.injEq, Prod.mk.injEq] at hqueue
  obtain ⟨hsent, -, -⟩ := replies_reach_sender .echo .v6 .fifo .default 7 1 firstScope hr
  obtain ⟨peer, hreaches, -, -, hout⟩ := hsent s.timer s.now ⟨linkLocal 2, [2]⟩
  rw [hqueue.1, if_neg Bool.false_ne_true, hqueue.2] at hout
  exact ⟨s, peer, hr, hreaches, congrArg Queue.items hout⟩

/-- So a reply may go to another scope than that of the record which it answers. -/
theorem not_always_to_sender :
    ¬ ∀ (h : Handler) (family : Family) (order : Discipline) (policy : ExpiryPolicy) (now : Instant)
        (count : Nat) (acts : List Act) (s : Dispatchers) (p : Packet),
      run h (start (.new family order policy) now count) acts = some s →
        s.manager.outbound.items = [] →
        ∀ r ∈ (s.manager.dispatch s.timer s.now h p).2.1.outbound.items, r.peer = p.peer := by
  intro hall
  have hitems : (run .echo (start (.new .v6 .fifo .default) 7 1) firstScope).map (fun s =>
      (s.manager.outbound.items,
        (s.manager.dispatch s.timer s.now .echo ⟨linkLocal 2, [2]⟩).2.1.outbound.items)) =
        some ([], [⟨linkLocal 1, [2]⟩]) := by cbv
  obtain ⟨s, hr, hs⟩ := Option.map_eq_some_iff.mp hitems
  rw [Prod.mk.injEq] at hs
  have hpeer := hall .echo .v6 .fifo .default 7 1 firstScope s ⟨linkLocal 2, [2]⟩ hr hs.1
      ⟨linkLocal 1, [2]⟩ (by rw [hs.2]; simp)
  cases hpeer

end Dispatchers

end SessionDispatch
