import SessionDispatch.Proofs.Run
import SessionDispatch.Session.Dispatchers

/-!
# What each act of a dispatcher can do

One statement for each act that has a condition: where it can happen, and the state that it leads
to. All other acts lead to the state that their definition writes out.
-/

namespace SessionDispatch.Dispatchers

variable {h : Handler} {s s' : Dispatchers} {d i : Nat}

theorem act_arrive {p : Packet} (hs : act h s (.arrive p) = some s') :
    (s.manager.inbound.closed = true ∧ s' = s) ∨
      (s.manager.inbound.closed = false ∧ s' = { s with
        manager := { s.manager with
          inbound := { s.manager.inbound with items := s.manager.inbound.items ++ [p] } }
        accepted := s.accepted ++ [p] }) := by
  simp only [act] at hs
  cases hc : s.manager.inbound.closed with
  | true =>
      rw [Queue.push_of_closed hc] at hs
      exact .inl ⟨rfl, (Option.some.inj hs).symm⟩
  | false =>
      rw [Queue.push_of_open hc] at hs
      exact .inr ⟨rfl, (Option.some.inj hs).symm⟩

theorem act_take (hs : act h s (.take d) = some s') :
    s.stages[d]? = some .idle ∧
      ((∃ p, s.manager.inbound.take.1 = some p ∧
          s' =
            { s with manager := { s.manager with inbound := s.manager.inbound.take.2 } }.setStage d
            (.taken p)) ∨
        (s.manager.inbound.take.1 = none ∧ s.manager.inbound.closed = true ∧
          s' = s.setStage d .ended)) := by
  simp only [act] at hs
  split at hs
  · rename_i p inbound hst hin
    refine ⟨hst, .inl ⟨p, by rw [hin], ?_⟩⟩
    rw [hin]
    exact (Option.some.inj hs).symm
  · rename_i inbound hst hin
    split at hs
    · rename_i hc
      exact ⟨hst, .inr ⟨by rw [hin], hc, (Option.some.inj hs).symm⟩⟩
    · cases hs
  · cases hs

theorem act_route (hs : act h s (.route d) = some s') :
    ∃ p, s.stages[d]? = some (.taken p) ∧
      s' = { s with manager := (s.manager.route p).2 }.setStage d
        (.routed p (s.manager.route p).1.1 (s.manager.route p).1.2) := by
  simp only [act] at hs
  split at hs
  · rename_i p hst
    exact ⟨p, hst, (Option.some.inj hs).symm⟩
  · cases hs

theorem act_decide (hs : act h s (.decide d) = some s') :
    ∃ p id created, s.stages[d]? = some (.routed p id created) ∧
      s' = { s with metrics := if created then s.metrics ++ [Metric.sessionCreated]
        else s.metrics }.setStage
        d (if s.manager.mustArm created then .arming p id created else .ready p id created) := by
  simp only [act] at hs
  split at hs
  · rename_i p id created hst
    exact ⟨p, id, created, hst, (Option.some.inj hs).symm⟩
  · cases hs

theorem act_arm (hs : act h s (.arm d) = some s') :
    ∃ p id created, s.stages[d]? = some (.arming p id created) ∧ s.isRenewing id = false ∧
      s' = { s with
        manager := (s.manager.renew s.timer s.now id).2.1
        timer := (s.manager.renew s.timer s.now id).2.2 }.setStage
          d (.disarming p id created (s.manager.renew s.timer s.now id).1) := by
  simp only [act] at hs
  split at hs
  · rename_i p id created hst
    split at hs
    · cases hs
    · rename_i hl
      exact ⟨p, id, created, hst, Bool.eq_false_iff.mpr hl, (Option.some.inj hs).symm⟩
  · cases hs

theorem act_disarm (hs : act h s (.disarm d) = some s') :
    ∃ p id created previous, s.stages[d]? = some (.disarming p id created previous) ∧
      s' = { s with timer := SessionManager.withdraw s.timer previous }.setStage
        d (.ready p id created) := by
  simp only [act] at hs
  split at hs
  · rename_i p id created previous hst
    exact ⟨p, id, created, previous, hst, (Option.some.inj hs).symm⟩
  · cases hs

theorem act_enter (hs : act h s (.enter d) = some s') :
    ∃ p id created x, s.stages[d]? = some (.ready p id created) ∧ s.manager.session? id = some x ∧
      s.isLocked id = false ∧
      s' = { s with handled := s.handled ++ [(x.key, p.payload)] }.setStage d
        (.handling p id created) := by
  simp only [act] at hs
  split at hs
  · rename_i p id created hst
    split at hs
    · rename_i x hx
      split at hs
      · cases hs
      · rename_i hl
        exact ⟨p, id, created, x, hst, hx, Bool.eq_false_iff.mpr hl, (Option.some.inj hs).symm⟩
    · cases hs
  · cases hs

theorem act_leave (hs : act h s (.leave d) = some s') :
    ∃ p id created, s.stages[d]? = some (.handling p id created) ∧
      s' = { s with manager := (s.manager.process h id p.payload).2 }.setStage d
        (.replying id (s.manager.process h id p.payload).1) := by
  simp only [act] at hs
  split at hs
  · rename_i p id created hst
    exact ⟨p, id, created, hst, (Option.some.inj hs).symm⟩
  · cases hs

theorem act_reply (hs : act h s (.reply d) = some s') :
    ∃ id, (s.stages[d]? = some (.replying id []) ∧ s' = s.setStage d .idle) ∨
      ∃ p rest, s.stages[d]? = some (.replying id (p :: rest)) ∧
        s' = { s with
          manager := { s.manager with outbound := (s.manager.outbound.push p).2 }
          replied := if (s.manager.outbound.push p).1 then s.replied ++ [p] else s.replied
          dropped :=
            if (s.manager.outbound.push p).1 then s.dropped else s.dropped ++ [p] }.setStage d
            (.replying id rest) := by
  simp only [act] at hs
  split at hs
  · rename_i id hst
    exact ⟨id, .inl ⟨hst, (Option.some.inj hs).symm⟩⟩
  · rename_i id p rest hst
    exact ⟨id, .inr ⟨p, rest, hst, (Option.some.inj hs).symm⟩⟩
  · cases hs

theorem act_pass (hs : act h s .pass = some s') :
    s.timer.stopped = false ∧
      s' = { s with
        timer := (s.timer.pass s.now).2
        expiries := s.expiries ++ (s.timer.pass s.now).1.map (·.action)
        metrics := s.metrics ++ (s.timer.pass s.now).1.map fun _ => .timerFired } := by
  simp only [act] at hs
  split at hs
  · cases hs
  · rename_i hst
    exact ⟨Bool.eq_false_iff.mpr hst, (Option.some.inj hs).symm⟩

theorem act_expire (hs : act h s (.expire i) = some s') :
    ∃ e, s.expiries[i]? = some e ∧ s.isRenewing e.session = false ∧
      s' = { s with
        manager := (s.manager.expire e).1
        expiries := s.expiries.eraseIdx i
        metrics := s.metrics ++ (s.manager.expire e).2 } := by
  simp only [act] at hs
  split at hs
  · rename_i e he
    split at hs
    · cases hs
    · rename_i hl
      exact ⟨e, he, Bool.eq_false_iff.mpr hl, (Option.some.inj hs).symm⟩
  · cases hs

theorem act_giveUp (hs : act h s (.giveUp i) = some s') :
    s.poolClosed = true ∧ s' = { s with expiries := s.expiries.eraseIdx i } := by
  simp only [act] at hs
  split at hs
  · rename_i hc
    exact ⟨hc.1, (Option.some.inj hs).symm⟩
  · cases hs

end SessionDispatch.Dispatchers
