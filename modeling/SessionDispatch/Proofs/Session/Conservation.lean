import SessionDispatch.Proofs.Queue.Taking
import SessionDispatch.Proofs.Session.Routes

/-!
# No record is lost or handled twice

A record that was accepted waits in the inbound queue, is held by one dispatcher, or has been handed
to the handler. What the handler gave has been queued or dropped, or is still owed by the dispatcher
that called it.
-/

namespace SessionDispatch

/-- What a record tells: the key of its peer and its payload. -/
def Packet.keyed (p : Packet) : PeerKey × List UInt8 := (p.key, p.payload)

/-- What the handler gives for a record, under the key of the record. -/
def Handler.answers (h : Handler) (call : PeerKey × List UInt8) : List (PeerKey × List UInt8) :=
  (h call.1 call.2).map (call.1, ·)

namespace Dispatchers

open SessionManager

/-- The record that a dispatcher has taken and not handed to the handler. -/
def Stage.held : Stage → List Packet
  | .taken p | .routed p _ _ | .arming p _ _ | .disarming p _ _ _ | .ready p _ _ => [p]
  | _ => []

/-- The replies that a dispatcher has still to queue. -/
def Stage.owed (h : Handler) : Stage → List (PeerKey × List UInt8)
  | .handling p _ _ => h.answers p.keyed
  | .replying _ replies => replies.map Packet.keyed
  | _ => []

variable {h : Handler} {s s' : Dispatchers} {a : Act} {d : Nat} {old new : Stage} {l : Ledger}

/-! ## The balance -/

/-- Every accepted record is in one place, and so is every reply of the handler. -/
structure Ledger.Balanced (h : Handler) (l : Ledger) (stages : List Stage) : Prop where
  records : (l.accepted.map Packet.keyed).Perm
    (l.handled ++ (stages.flatMap Stage.held ++ l.queued).map Packet.keyed)
  replies : (l.handled.flatMap h.answers).Perm
    ((l.replied ++ l.dropped).map Packet.keyed ++ stages.flatMap (Stage.owed h))

theorem flatMap_set_perm {β : Type} (f : Stage → List β) {stages : List Stage}
    (hd : stages[d]? = some old) (new : Stage) :
    (f old ++ (stages.set d new).flatMap f).Perm (f new ++ stages.flatMap f) := by
  induction stages generalizing d with
  | nil => cases hd
  | cons stage stages ih =>
      cases d with
      | zero =>
          obtain rfl := Option.some.inj hd
          simp only [List.set_cons_zero, List.flatMap_cons, ← List.append_assoc]
          exact List.perm_append_comm.append_right _
      | succ d =>
          simp only [List.set_cons_succ, List.flatMap_cons, ← List.append_assoc]
          refine (List.perm_append_comm.append_right _).trans ?_
          refine (List.Perm.trans ?_ (List.perm_append_comm.append_right _))
          rw [List.append_assoc, List.append_assoc]
          exact (ih hd).append_left _

/-- The session of a dispatcher about to call the handler has the key of the record. -/
theorem Routed.handled_eq (hr : s.Routed) {p : Packet} {id : Nat} {created : Bool} {x : Session}
    (hd : s.stages[d]? = some (.ready p id created)) (hx : s.manager.sessions[id]? = some x) :
    (x.key, p.payload) = p.keyed := by
  obtain ⟨y, hy, hk⟩ := hr.fits d _ hd
  obtain rfl : x = y := Option.some.inj (hx.symm.trans hy)
  exact Prod.ext hk rfl

/-- The replies of the handler are under the key of the record that they answer. -/
theorem Routed.process_eq (hr : s.Routed) {p : Packet} {id : Nat} {created : Bool}
    (hd : s.stages[d]? = some (.handling p id created)) :
    (s.manager.process h id p.payload).1.map Packet.keyed = h.answers p.keyed := by
  obtain ⟨x, hx, hk⟩ := hr.fits d _ hd
  rw [process_of_some hx, List.map_map, Handler.answers, Packet.keyed, hk]
  refine List.map_congr_left fun reply _ => Prod.ext ?_ rfl
  exact (hr.key id x hx).symm.trans hk

namespace Ledger.Balanced

/-- A dispatcher that goes on takes a record, hands it to the handler, or sees to a reply, and
nothing else. -/
theorem goes (hb : s.ledger.Balanced h s.stages) (hr : s.Routed) (hd : s.stages[d]? = some old)
    (hg : Goes h s a old new l) : l.Balanced h (s.stages.set d new) := by
  have hrecords := hb.records.count_eq
  have hreplies := hb.replies.count_eq
  have hheld := ((flatMap_set_perm Stage.held hd new).map Packet.keyed).count_eq
  have howed := (flatMap_set_perm (Stage.owed h) hd new).count_eq
  refine ⟨List.perm_iff_count.mpr fun c => ?_, List.perm_iff_count.mpr fun c => ?_⟩
  · specialize hrecords c
    specialize hheld c
    cases hg with
    | finish _ _ | route | mustArm _ | skip _ | arm _ _ | disarm | rest | leave | reply _
    | drop _ =>
        simp only [Stage.held, ledger, List.map_append, List.count_append] at hrecords hheld ⊢
        omega
    | take hp =>
        have hq := ((Queue.take_perm hp).map Packet.keyed).count_eq c
        simp only [Stage.held, ledger, List.map_append, List.count_append, List.map_cons,
          List.count_cons, List.map_nil, List.count_nil] at hrecords hheld hq ⊢
        omega
    | enter hx _ =>
        rw [hr.handled_eq hd hx]
        simp only [Stage.held, ledger, List.map_append, List.count_append, List.map_cons,
          List.map_nil, List.count_nil] at hrecords hheld ⊢
        omega
  · specialize hreplies c
    specialize howed c
    cases hg with
    | finish _ _ | route | mustArm _ | skip _ | arm _ _ | disarm | rest | take _ =>
        simp only [Stage.owed, ledger, List.map_append, List.count_append, List.map_nil,
          List.count_nil] at hreplies howed ⊢
        omega
    | leave =>
        simp only [Stage.owed, hr.process_eq hd, ledger, List.map_append, List.count_append]
          at hreplies howed ⊢
        omega
    | reply _ | drop _ =>
        simp only [Stage.owed, ledger, List.map_append, List.count_append, List.map_cons,
          List.count_cons, List.map_nil, List.count_nil] at hreplies howed ⊢
        omega
    | enter hx _ =>
        rw [hr.handled_eq hd hx]
        simp only [Stage.owed, ledger, List.flatMap_append, List.flatMap_singleton, List.map_append,
          List.count_append, List.count_nil] at hreplies howed ⊢
        omega

theorem arrive (hb : l.Balanced h s.stages) (p : Packet) :
    ({ l with accepted := l.accepted ++ [p], queued := l.queued ++ [p] } : Ledger).Balanced h
    s.stages := by
  refine ⟨?_, hb.replies⟩
  have hp := hb.records.append_right [p.keyed]
  simpa only [List.map_append, List.map_cons, List.map_nil, List.append_assoc] using hp

end Ledger.Balanced

theorem balanced_act (hr : s.Routed) (hb : s.ledger.Balanced h s.stages)
    (ha : act h s a = some s') :
    s'.ledger.Balanced h s'.stages := by
  obtain ⟨d, old, new, -, hd, hg, hst⟩ | ⟨-, hst, hl | ⟨p, -, -, hl⟩⟩ := stages_act ha
  · rw [hst]
    exact hb.goes hr hd hg
  · rw [hst, hl]
    exact hb
  · rw [hst, hl]
    exact hb.arrive p

end Dispatchers

end SessionDispatch
