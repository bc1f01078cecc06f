import Mathlib.Data.List.Induction
import SessionDispatch.Proofs.Session.Conservation

/-!
# Queues that close meanwhile

The inbound queue takes the records that arrive before it is closed and no other, and a dispatcher
ends only after it, when no record waits any more. The outbound queue takes the replies that are
queued before it is closed, and all later ones are dropped.
-/

namespace SessionDispatch

namespace Dispatchers

open SessionManager

variable {h : Handler} {s s' : Dispatchers} {a : Act} {acts : List Act}

def Act.arriving? : Act → Option Packet
  | .arrive p => some p
  | _ => none

/-! ## One act -/

/-- What an act does to the queues, apart from the records that come and go at the inbound queue. -/
structure Queueing (s s' : Dispatchers) (a : Act) : Prop where
  inOrder : s'.manager.inbound.order = s.manager.inbound.order
  outOrder : s'.manager.outbound.order = s.manager.outbound.order
  inClosed : s'.manager.inbound.closed = true ↔ s.manager.inbound.closed = true ∨ a = .closeInbound
  outClosed : s'.manager.outbound.closed = true ↔
    s.manager.outbound.closed = true ∨ a = .closeOutbound
  outItems : (a = .send ∧ s'.manager.outbound.items = s.manager.outbound.take.2.items ∧
    s'.replied = s.replied) ∨
    (a ≠ .send ∧ ∃ more, s'.manager.outbound.items = s.manager.outbound.items ++ more ∧
      s'.replied = s.replied ++ more)

theorem Queueing.of_same (hin : s'.manager.inbound = s.manager.inbound)
    (hout : s'.manager.outbound = s.manager.outbound) (hr : s'.replied = s.replied)
    (hne : a ≠ .closeInbound ∧ a ≠ .closeOutbound ∧ a ≠ .send) : Queueing s s' a where
  inOrder := by rw [hin]
  outOrder := by rw [hout]
  inClosed := by rw [hin, or_iff_left hne.1]
  outClosed := by rw [hout, or_iff_left hne.2.1]
  outItems := .inr ⟨hne.2.2, [], by rw [hout, List.append_nil], by rw [hr, List.append_nil]⟩

theorem queueing_act (ha : act h s a = some s') : Queueing s s' a := by
  cases a with
  | arrive p =>
      obtain ⟨-, rfl⟩ | ⟨-, rfl⟩ := act_arrive ha
      · exact .of_same rfl rfl rfl ⟨nofun, nofun, nofun⟩
      · exact ⟨rfl, rfl, (or_iff_left nofun).symm, (or_iff_left nofun).symm,
          .inr ⟨nofun, [], (List.append_nil _).symm, (List.append_nil _).symm⟩⟩
  | closeInbound =>
      obtain rfl := Option.some.inj ha
      exact ⟨rfl, rfl, iff_of_true rfl (.inr rfl), (or_iff_left nofun).symm,
        .inr ⟨nofun, [], (List.append_nil _).symm, (List.append_nil _).symm⟩⟩
  | closeOutbound =>
      obtain rfl := Option.some.inj ha
      exact ⟨rfl, rfl, (or_iff_left nofun).symm, iff_of_true rfl (.inr rfl),
        .inr ⟨nofun, [], (List.append_nil _).symm, (List.append_nil _).symm⟩⟩
  | send =>
      obtain rfl := Option.some.inj ha
      refine ⟨rfl, Queue.take_order _, (or_iff_left nofun).symm, ?_, .inl ⟨rfl, rfl, rfl⟩⟩
      rw [or_iff_left nofun]
      exact Bool.eq_iff_iff.mp (Queue.take_closed _)
  | take d =>
      obtain ⟨-, ⟨p, -, rfl⟩ | ⟨-, -, rfl⟩⟩ := act_take ha
      · refine ⟨Queue.take_order _, rfl, ?_, (or_iff_left nofun).symm,
          .inr ⟨nofun, [], (List.append_nil _).symm, (List.append_nil _).symm⟩⟩
        rw [or_iff_left nofun]
        exact Bool.eq_iff_iff.mp (Queue.take_closed _)
      · exact .of_same rfl rfl rfl ⟨nofun, nofun, nofun⟩
  | route d =>
      obtain ⟨p, hd, rfl⟩ := act_route ha
      exact .of_same rfl rfl rfl ⟨nofun, nofun, nofun⟩
  | decide d =>
      obtain ⟨p, j, created, -, rfl⟩ := act_decide ha
      exact .of_same rfl rfl rfl ⟨nofun, nofun, nofun⟩
  | arm d =>
      obtain ⟨p, id, created, -, -, rfl⟩ := act_arm ha
      cases hx : s.manager.sessions[id]? with
      | none =>
          rw [renew_of_none hx]
          exact .of_same rfl rfl rfl ⟨nofun, nofun, nofun⟩
      | some x =>
          rw [renew_of_some hx]
          exact .of_same rfl rfl rfl ⟨nofun, nofun, nofun⟩
  | disarm d =>
      obtain ⟨p, j, created, previous, -, rfl⟩ := act_disarm ha
      exact .of_same rfl rfl rfl ⟨nofun, nofun, nofun⟩
  | enter d =>
      obtain ⟨p, j, created, x, -, -, -, rfl⟩ := act_enter ha
      exact .of_same rfl rfl rfl ⟨nofun, nofun, nofun⟩
  | leave d =>
      obtain ⟨p, id, created, -, rfl⟩ := act_leave ha
      rw [process_snd]
      exact .of_same rfl rfl rfl ⟨nofun, nofun, nofun⟩
  | reply d =>
      obtain ⟨id, ⟨-, rfl⟩ | ⟨r, rest, -, rfl⟩⟩ := act_reply ha
      · exact .of_same rfl rfl rfl ⟨nofun, nofun, nofun⟩
      · cases ho : s.manager.outbound.closed with
        | true =>
            simp only [Queue.push_of_closed ho]
            exact .of_same rfl rfl rfl ⟨nofun, nofun, nofun⟩
        | false =>
            simp only [Queue.push_of_open ho]
            exact ⟨rfl, rfl, (or_iff_left nofun).symm, (or_iff_left nofun).symm,
              .inr ⟨nofun, [r], rfl, rfl⟩⟩
  | expire i =>
      obtain ⟨e, -, -, rfl⟩ := act_expire ha
      rw [expire_eq]
      exact .of_same rfl rfl rfl ⟨nofun, nofun, nofun⟩
  | pass =>
      obtain ⟨-, rfl⟩ := act_pass ha
      exact .of_same rfl rfl rfl ⟨nofun, nofun, nofun⟩
  | giveUp i =>
      obtain ⟨-, rfl⟩ := act_giveUp ha
      exact .of_same rfl rfl rfl ⟨nofun, nofun, nofun⟩
  | setPolicy _ | tick _ | remove _ | clear | closePool | stopTimer =>
      obtain rfl := Option.some.inj ha
      exact .of_same rfl rfl rfl ⟨nofun, nofun, nofun⟩

/-- A dispatcher ends at an empty queue that was closed, and no record comes after that. -/
theorem ended_act (he : ∀ d : Nat, s.stages[d]? = some .ended →
      s.manager.inbound.closed = true ∧
        s.manager.inbound.items = []) (ha : act h s a = some s') (d : Nat)
    (hd : s'.stages[d]? = some .ended) : s'.manager.inbound.closed = true ∧
    s'.manager.inbound.items = [] := by
  have hclosed : s.manager.inbound.closed = true → s'.manager.inbound.closed = true :=
    fun hc => (queueing_act ha).inClosed.mpr (.inl hc)
  obtain ⟨e, old, new, -, -, hg, hst⟩ | ⟨-, hst, hl | ⟨p, -, hopen, hl⟩⟩ := stages_act ha
  · generalize hl : s'.ledger = l at hg
    rw [hst, List.getElem?_set] at hd
    split_ifs at hd
    · obtain rfl := Option.some.inj hd
      cases hg with
      | finish hq hc =>
          exact ⟨hclosed hc, (congrArg Ledger.queued hl).trans (Queue.take_eq_none_iff _ |>.mp hq)⟩
    · obtain ⟨hc, hi⟩ := he d hd
      refine ⟨hclosed hc, (congrArg Ledger.queued hl).trans ?_⟩
      cases hg with
      | take hp =>
          rw [(Queue.take_eq_none_iff _).mpr hi] at hp
          cases hp
      | finish _ _ | route | mustArm _ | skip _ | arm _ _ | disarm | enter _ _ | leave | reply _
      | drop _ | rest =>
          exact hi
  · have hq : s'.manager.inbound.items = s.manager.inbound.items := congrArg Ledger.queued hl
    obtain ⟨hc, hi⟩ := he d (hst ▸ hd)
    exact ⟨hclosed hc, hq.trans hi⟩
  · obtain ⟨hc, -⟩ := he d (hst ▸ hd)
    exact absurd hc (Bool.eq_false_iff.mp hopen)

/-- An open queue takes every reply. -/
theorem dropped_act (hd : s.manager.outbound.closed = false → s.dropped = [])
    (ha : act h s a = some s') (ho : s'.manager.outbound.closed = false) : s'.dropped = [] := by
  have hopen : s.manager.outbound.closed = false := by
    refine Bool.eq_false_iff.mpr fun hc => ?_
    exact absurd ((queueing_act ha).outClosed.mpr (.inl hc)) (Bool.eq_false_iff.mp ho)
  have hl : s'.ledger.dropped = s.ledger.dropped := by
    obtain ⟨e, old, new, -, -, hg, -⟩ | ⟨-, -, hl | ⟨p, -, -, hl⟩⟩ := stages_act ha
    · generalize s'.ledger = l at hg ⊢
      cases hg with
      | drop hc => exact absurd hc (Bool.eq_false_iff.mp hopen)
      | take _ | finish _ _ | route | mustArm _ | skip _ | arm _ _ | disarm | enter _ _ | leave
      | reply _ | rest => rfl
    · rw [hl]
    · rw [hl]
  exact hl.trans (hd hopen)

theorem accepted_act (ha : act h s a = some s') :
    s'.accepted = s.accepted ++ if s.manager.inbound.closed then [] else a.arriving?.toList := by
  cases hp : a.arriving? with
  | some p =>
      obtain rfl : a = .arrive p := by
        cases a with
        | arrive q => exact congrArg Act.arrive (Option.some.inj hp)
        | _ => cases hp
      obtain ⟨hc, rfl⟩ | ⟨ho, rfl⟩ := act_arrive ha
      · rw [if_pos hc, List.append_nil]
      · rw [if_neg (Bool.eq_false_iff.mp ho)]
        rfl
  | none =>
      rw [Option.toList_none, ite_self, List.append_nil]
      change s'.ledger.accepted = s.ledger.accepted
      obtain ⟨e, old, new, -, -, hg, -⟩ | ⟨-, -, hl | ⟨p, rfl, -⟩⟩ := stages_act ha
      · generalize s'.ledger = l at hg ⊢
        cases hg <;> rfl
      · rw [hl]
      · cases hp

/-- A closed queue takes no reply. -/
theorem replied_act (ho : s.manager.outbound.closed = true) (ha : act h s a = some s') :
    s'.replied = s.replied := by
  change s'.ledger.replied = s.ledger.replied
  obtain ⟨e, old, new, -, -, hg, -⟩ | ⟨-, -, hl | ⟨p, -, -, hl⟩⟩ := stages_act ha
  · generalize s'.ledger = l at hg ⊢
    cases hg with
    | reply hc => exact absurd ho (Bool.eq_false_iff.mp hc)
    | take _ | finish _ _ | route | mustArm _ | skip _ | arm _ _ | disarm | enter _ _ | leave
    | drop _ | rest => rfl
  · rw [hl]
  · rw [hl]

/-! ## Runs -/

/-- Only who closes a queue closes it. -/
theorem closings_run (hr : run h s acts = some s') :
    (s'.manager.inbound.closed = true ↔ s.manager.inbound.closed = true ∨ .closeInbound ∈ acts) ∧
      (s'.manager.outbound.closed = true ↔
        s.manager.outbound.closed = true ∨ .closeOutbound ∈ acts) := by
  induction acts using List.reverseRecOn generalizing s' with
  | nil =>
      obtain rfl := Option.some.inj hr
      exact ⟨(or_iff_left List.not_mem_nil).symm, (or_iff_left List.not_mem_nil).symm⟩
  | append_singleton acts a ih =>
      obtain ⟨u, hu, ha⟩ := Run.foldlM_concat_eq_some hr
      obtain ⟨hin, hout⟩ := ih hu
      have hq := queueing_act ha
      rw [hq.inClosed, hq.outClosed, hin, hout, List.mem_append, List.mem_append,
        List.mem_singleton, List.mem_singleton,
        or_assoc, or_assoc, eq_comm (a := a), eq_comm (a := a)]
      exact ⟨Iff.rfl, Iff.rfl⟩

structure Blank (s : Dispatchers) : Prop where
  inOpen : s.manager.inbound.closed = false
  outOpen : s.manager.outbound.closed = false
  outItems : s.manager.outbound.items = []
  ledger : s.ledger = ⟨[], [], [], [], []⟩
  idle : ∀ (d : Nat) (stage : Stage), s.stages[d]? = some stage → stage = .idle

theorem blank_start (family : Family) (order : Discipline) (policy : ExpiryPolicy) (now : Instant)
    (count : Nat) : (start (.new family order policy) now count).Blank :=
  ⟨rfl, rfl, rfl, rfl, fun _ _ hd => (List.mem_replicate.mp (List.mem_of_getElem? hd)).2⟩

def sending? (s : Dispatchers) : Act → Option Packet
  | .send => s.manager.outbound.take.1
  | _ => none

/-- All replies that send loops take in a run, in order. -/
def sent (h : Handler) : Dispatchers → List Act → List Packet := Run.observe (act h) sending?

theorem takeWhile_concat_of_mem {α : Type} {f : α → Bool} {l : List α} {b : α} (hb : b ∈ l) (a : α)
    (hf : f b = false) : (l ++ [a]).takeWhile f = l.takeWhile f := by
  induction l with
  | nil => cases hb
  | cons c l ih =>
      rw [List.cons_append, List.takeWhile_cons, List.takeWhile_cons]
      cases hc : f c with
      | false => rfl
      | true =>
          rw [ih ((List.mem_cons.mp hb).resolve_left fun h => Bool.false_ne_true
            (hf.symm.trans (h ▸ hc)))]

section Run

variable {s₀ : Dispatchers} (hb : s₀.Blank) (hr : run h s₀ acts = some s)
include hb hr

theorem closed_run :
    (s.manager.inbound.closed = true ↔ .closeInbound ∈ acts) ∧
      (s.manager.outbound.closed = true ↔ .closeOutbound ∈ acts) := by
  obtain ⟨hin, hout⟩ := closings_run hr
  rw [hin, hout, hb.inOpen, hb.outOpen]
  exact ⟨or_iff_right Bool.false_ne_true, or_iff_right Bool.false_ne_true⟩

/-- The inbound queue takes the records that arrive before it is closed. -/
theorem accepted_run :
    s.accepted = (acts.takeWhile (· ≠ .closeInbound)).filterMap Act.arriving? := by
  induction acts using List.reverseRecOn generalizing s with
  | nil =>
      obtain rfl := Option.some.inj hr
      exact congrArg Ledger.accepted hb.ledger
  | append_singleton acts a ih =>
      obtain ⟨u, hu, ha⟩ := Run.foldlM_concat_eq_some hr
      have hclosed := (closed_run hb hu).1
      have hlast := accepted_act ha
      by_cases hc : .closeInbound ∈ acts
      · rw [hlast, if_pos (hclosed.mpr hc), List.append_nil, ih hu,
          takeWhile_concat_of_mem hc a (by simp)]
      · have hall : ∀ b ∈ acts, decide (b ≠ .closeInbound) = true := fun b hb => by
          simpa using ne_of_mem_of_not_mem hb hc
        have hself : acts.takeWhile (· ≠ .closeInbound) = acts := by
          have happend :
              (acts ++ []).takeWhile (· ≠ Act.closeInbound) = acts ++ List.takeWhile _ [] :=
            List.takeWhile_append_of_pos hall
          simpa only [List.append_nil, List.takeWhile_nil] using happend
        rw [hlast, if_neg (mt hclosed.mp hc), ih hu, List.takeWhile_append_of_pos hall,
          List.filterMap_append, hself]
        cases a <;> rfl

/-- What the outbound queue took has been sent or waits there, and in a queue that gives the oldest
reply first all replies stay in order. -/
theorem replied_run :
    s.manager.outbound.order = s₀.manager.outbound.order ∧
      s.replied.Perm (sent h s₀ acts ++ s.manager.outbound.items) ∧
      (s₀.manager.outbound.order = .fifo →
        s.replied = sent h s₀ acts ++ s.manager.outbound.items) := by
  induction acts using List.reverseRecOn generalizing s with
  | nil =>
      obtain rfl := Option.some.inj hr
      have hl : s₀.replied = sent h s₀ [] ++ s₀.manager.outbound.items := by
        rw [hb.outItems]
        exact congrArg Ledger.replied hb.ledger
      exact ⟨rfl, .of_eq hl, fun _ => hl⟩
  | append_singleton acts a ih =>
      obtain ⟨u, hu, ha⟩ := Run.foldlM_concat_eq_some hr
      obtain ⟨horder, hperm, heq⟩ := ih hu
      have hq := queueing_act ha
      have hsent : sent h s₀ (acts ++ [a]) = sent h s₀ acts ++ (sending? u a).toList :=
        Run.observe_concat sending? hu a
      rw [hsent, List.append_assoc]
      refine ⟨hq.outOrder.trans horder, ?_⟩
      obtain ⟨rfl, hi, hrep⟩ | ⟨hne, more, hi, hrep⟩ := hq.outItems
      · rw [hi, hrep]
        refine ⟨hperm.trans ((Queue.take_toList_perm _).append_left _), fun ho => ?_⟩
        rw [heq ho, Queue.take_toList_eq _ (horder.trans ho)]
        rfl
      · have hn : sending? u a = none := by
          cases a with
          | send => exact absurd rfl hne
          | _ => rfl
        rw [hi, hrep, hn, Option.toList_none, List.nil_append, ← List.append_assoc]
        exact ⟨hperm.append_right more, fun ho => congrArg (· ++ more) (heq ho)⟩

end Run

end Dispatchers

end SessionDispatch
