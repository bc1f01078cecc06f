import SessionDispatch.Proofs.Session.Sessions
import SessionDispatch.Proofs.Session.Steps

/-!
# How dispatchers go on

Each act of a dispatcher takes it from one stage to the next. `Goes` lists the ways in which this
can happen, with what becomes known of records and replies; all other acts leave every dispatcher
where it is.
-/

namespace SessionDispatch.Dispatchers

def Act.dispatcher? : Act → Option Nat
  | .take d | .route d | .decide d | .arm d | .disarm d | .enter d | .leave d | .reply d => some d
  | _ => none

/-- Records that were accepted, those that still wait, calls of the handler, and replies. -/
structure Ledger where
  accepted : List Packet
  queued : List Packet
  handled : List (PeerKey × List UInt8)
  replied : List Packet
  dropped : List Packet

def ledger (s : Dispatchers) : Ledger :=
  ⟨s.accepted, s.manager.inbound.items, s.handled, s.replied, s.dropped⟩

/-- By an act a dispatcher goes from one stage to another, and what is known then. -/
inductive Goes (h : Handler) (s : Dispatchers) : Act → Stage → Stage → Ledger → Prop
  | take {d : Nat} {p : Packet} (hp : s.manager.inbound.take.1 = some p) :
      Goes h s (.take d) .idle (.taken p) { s.ledger with queued := s.manager.inbound.take.2.items }
  | finish {d : Nat} (hq : s.manager.inbound.take.1 = none) (hc : s.manager.inbound.closed = true) :
      Goes h s (.take d) .idle .ended s.ledger
  | route {d : Nat} {p : Packet} :
      Goes h s (.route d) (.taken p)
        (.routed p (s.manager.route p).1.1 (s.manager.route p).1.2) s.ledger
  | mustArm {d : Nat} {p : Packet} {id : Nat} {created : Bool}
      (hm : s.manager.mustArm created = true) :
      Goes h s (.decide d) (.routed p id created) (.arming p id created) s.ledger
  | skip {d : Nat} {p : Packet} {id : Nat} {created : Bool}
      (hm : s.manager.mustArm created = false) :
      Goes h s (.decide d) (.routed p id created) (.ready p id created) s.ledger
  | arm {d : Nat} {p : Packet} {id : Nat} {created : Bool} (previous : Option Nat)
      (hr : s.isRenewing id = false) :
      Goes h s (.arm d) (.arming p id created) (.disarming p id created previous) s.ledger
  | disarm {d : Nat} {p : Packet} {id : Nat} {created : Bool} {previous : Option Nat} :
      Goes h s (.disarm d) (.disarming p id created previous) (.ready p id created) s.ledger
  | enter {d : Nat} {p : Packet} {id : Nat} {created : Bool} {x : Session}
      (hx : s.manager.sessions[id]? = some x) (hl : s.isLocked id = false) :
      Goes h s (.enter d) (.ready p id created) (.handling p id created)
        { s.ledger with handled := s.handled ++ [(x.key, p.payload)] }
  | leave {d : Nat} {p : Packet} {id : Nat} {created : Bool} :
      Goes h s (.leave d) (.handling p id created)
        (.replying id (s.manager.process h id p.payload).1)
        s.ledger
  | reply {d : Nat} {id : Nat} {r : Packet} {rest : List Packet}
      (ho : s.manager.outbound.closed = false) :
      Goes h s (.reply d) (.replying id (r :: rest)) (.replying id rest)
        { s.ledger with replied := s.replied ++ [r] }
  | drop {d : Nat} {id : Nat} {r : Packet} {rest : List Packet}
      (ho : s.manager.outbound.closed = true) :
      Goes h s (.reply d) (.replying id (r :: rest)) (.replying id rest)
        { s.ledger with dropped := s.dropped ++ [r] }
  | rest {d : Nat} {id : Nat} : Goes h s (.reply d) (.replying id []) .idle s.ledger

variable {h : Handler} {s s' : Dispatchers} {a : Act} {d : Nat}

/-! ## Who holds a session -/

theorem isLocked_eq_true {id : Nat} :
    s.isLocked id = true ↔
      ∃ (d : Nat) (p : Packet) (created : Bool), s.stages[d]? = some (.handling p id created) := by
  rw [isLocked, List.any_eq_true]
  constructor
  · rintro ⟨stage, hm, hl⟩
    obtain ⟨d, hd⟩ := List.mem_iff_getElem?.mp hm
    have hid : stage.locked? = some id := of_decide_eq_true hl
    cases stage with
    | handling p j created =>
        obtain rfl := Option.some.inj hid
        exact ⟨d, p, created, hd⟩
    | _ => cases hid
  · rintro ⟨d, p, created, hd⟩
    exact ⟨_, List.mem_of_getElem? hd, decide_eq_true rfl⟩

theorem isRenewing_eq_true {id : Nat} :
    s.isRenewing id = true ↔ ∃ (d : Nat) (p : Packet) (created : Bool) (previous : Option Nat),
      s.stages[d]? = some (.disarming p id created previous) := by
  rw [isRenewing, List.any_eq_true]
  constructor
  · rintro ⟨stage, hm, hl⟩
    obtain ⟨d, hd⟩ := List.mem_iff_getElem?.mp hm
    have hid : stage.renewing? = some id := of_decide_eq_true hl
    cases stage with
    | disarming p j created previous =>
        obtain rfl := Option.some.inj hid
        exact ⟨d, p, created, previous, hd⟩
    | _ => cases hid
  · rintro ⟨d, p, created, previous, hd⟩
    exact ⟨_, List.mem_of_getElem? hd, decide_eq_true rfl⟩

/-! ## What acts do to stages -/

/-- Either one dispatcher goes on, or all stay and at most a record arrives. -/
theorem stages_act (ha : act h s a = some s') :
    (∃ d old new, a.dispatcher? = some d ∧ s.stages[d]? = some old ∧ Goes h s a old new s'.ledger ∧
        s'.stages = s.stages.set d new) ∨
      (a.dispatcher? = none ∧ s'.stages = s.stages ∧ (s'.ledger = s.ledger ∨
        ∃ p, a = .arrive p ∧ s.manager.inbound.closed = false ∧ s'.ledger = { s.ledger with
          accepted := s.accepted ++ [p]
          queued := s.manager.inbound.items ++ [p] })) := by
  cases a with
  | take d =>
      obtain ⟨hd, ⟨p, hp, rfl⟩ | ⟨hq, hc, rfl⟩⟩ := act_take ha
      · exact .inl ⟨d, _, _, rfl, hd, .take hp, rfl⟩
      · exact .inl ⟨d, _, _, rfl, hd, .finish hq hc, rfl⟩
  | route d =>
      obtain ⟨p, hd, rfl⟩ := act_route ha
      exact .inl ⟨d, _, _, rfl, hd, .route, rfl⟩
  | decide d =>
      obtain ⟨p, id, created, hd, rfl⟩ := act_decide ha
      cases hm : s.manager.mustArm created with
      | true => exact .inl ⟨d, _, _, rfl, hd, .mustArm hm, rfl⟩
      | false => exact .inl ⟨d, _, _, rfl, hd, .skip hm, rfl⟩
  | arm d =>
      obtain ⟨p, id, created, hd, hr, rfl⟩ := act_arm ha
      cases hx : s.manager.sessions[id]? with
      | none =>
          rw [SessionManager.renew_of_none hx]
          exact .inl ⟨d, _, _, rfl, hd, .arm _ hr, rfl⟩
      | some x =>
          rw [SessionManager.renew_of_some hx]
          exact .inl ⟨d, _, _, rfl, hd, .arm _ hr, rfl⟩
  | disarm d =>
      obtain ⟨p, id, created, previous, hd, rfl⟩ := act_disarm ha
      exact .inl ⟨d, _, _, rfl, hd, .disarm, rfl⟩
  | enter d =>
      obtain ⟨p, id, created, x, hd, hx, hl, rfl⟩ := act_enter ha
      exact .inl ⟨d, _, _, rfl, hd, .enter hx hl, rfl⟩
  | leave d =>
      obtain ⟨p, id, created, hd, rfl⟩ := act_leave ha
      rw [SessionManager.process_snd]
      exact .inl ⟨d, _, _, rfl, hd, .leave, rfl⟩
  | reply d =>
      obtain ⟨id, ⟨hd, rfl⟩ | ⟨p, rest, hd, rfl⟩⟩ := act_reply ha
      · exact .inl ⟨d, _, _, rfl, hd, .rest, rfl⟩
      · refine .inl ⟨d, _, _, rfl, hd, ?_, rfl⟩
        cases ho : s.manager.outbound.closed with
        | true =>
            simp only [Queue.push_of_closed ho]
            exact .drop ho
        | false =>
            simp only [Queue.push_of_open ho]
            exact .reply ho
  | arrive p =>
      obtain ⟨hc, rfl⟩ | ⟨hc, rfl⟩ := act_arrive ha
      · exact .inr ⟨rfl, rfl, .inl rfl⟩
      · exact .inr ⟨rfl, rfl, .inr ⟨p, rfl, hc, rfl⟩⟩
  | pass =>
      obtain ⟨-, rfl⟩ := act_pass ha
      exact .inr ⟨rfl, rfl, .inl rfl⟩
  | expire i =>
      obtain ⟨e, -, -, rfl⟩ := act_expire ha
      rw [SessionManager.expire_eq]
      exact .inr ⟨rfl, rfl, .inl rfl⟩
  | giveUp i =>
      obtain ⟨-, rfl⟩ := act_giveUp ha
      exact .inr ⟨rfl, rfl, .inl rfl⟩
  | closeInbound | closeOutbound | send | setPolicy _ | tick _ | remove _ | clear | closePool
  | stopTimer =>
      obtain rfl := Option.some.inj ha
      exact .inr ⟨rfl, rfl, .inl rfl⟩

end SessionDispatch.Dispatchers
