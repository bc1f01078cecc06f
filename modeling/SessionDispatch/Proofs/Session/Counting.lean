import Mathlib.Data.List.TakeWhile
import SessionDispatch.Proofs.Session.Closing
import SessionDispatch.Proofs.Session.Replies

/-!
# Replies that are counted and replies that are queued

A dispatch counts the replies that the handler gives. These are queued one after the other, and once
the outbound queue is closed the others are dropped. So the count is that of the replies queued if
the queue stays open until the last of them, and too high if it does not.
-/

namespace SessionDispatch

namespace SessionManager

variable {m routed : SessionManager} {timer : Timer Expiry} {now : Instant} {h : Handler}
variable {p : Packet}

theorem dispatch_replies {id : Nat} {created : Bool} (hr : m.route p = ((id, created), routed))
    {x : Session} (hx : routed.sessions[id]? = some x) :
    (m.dispatch timer now h p).1.replies = (h x.key p.payload).length := by
  obtain ⟨hreplies, -⟩ := process_armed timer now h hx created p.payload
  unfold dispatch
  rw [hr]
  dsimp only
  rw [hreplies, List.length_map]

end SessionManager

namespace Dispatchers

open SessionManager

variable {h : Handler} {s s' s'' : Dispatchers} {a : Act} {acts : List Act} {d id : Nat}
variable {p : Packet}
  {replies rest : List Packet}

/-! ## One dispatcher -/

/-- The reply of a dispatcher that the outbound queue gets by an act. -/
def adding? (h : Handler) (d : Nat) (s : Dispatchers) (a : Act) : Option Packet :=
  if a = .reply d then
    (act h s a).bind (·.manager.outbound.items[s.manager.outbound.items.length]?)
  else none

/-- All replies of a dispatcher that the outbound queue gets in a run, in order. -/
def added (h : Handler) (d : Nat) : Dispatchers → List Act → List Packet :=
  Run.observe (act h) (adding? h d)

theorem act_reply_cons (hd : s.stages[d]? = some (.replying id (p :: rest)))
    (ha : act h s (.reply d) = some s') :
    s'.stages[d]? = some (.replying id rest) ∧
      adding? h d s (.reply d) = if s.manager.outbound.closed then none else some p := by
  have hl := (List.getElem?_eq_some_iff.mp hd).choose
  rw [adding?, if_pos rfl, ha, Option.bind_some]
  obtain ⟨j, ⟨hd', -⟩ | ⟨q, rest', hd', rfl⟩⟩ := act_reply ha
  · rw [hd] at hd'
    cases hd'
  · rw [hd] at hd'
    cases hd'
    refine ⟨List.getElem?_set_self hl, ?_⟩
    cases ho : s.manager.outbound.closed with
    | true => simp [setStage, Queue.push_of_closed ho]
    | false => simp [setStage, Queue.push_of_open ho]

theorem act_reply_nil (hd : s.stages[d]? = some (.replying id []))
    (ha : act h s (.reply d) = some s') :
    s'.stages[d]? = some .idle ∧ adding? h d s (.reply d) = none := by
  have hl := (List.getElem?_eq_some_iff.mp hd).choose
  rw [adding?, if_pos rfl, ha, Option.bind_some]
  obtain ⟨j, ⟨-, rfl⟩ | ⟨q, rest', hd', -⟩⟩ := act_reply ha
  · exact ⟨List.getElem?_set_self hl, List.getElem?_eq_none (Nat.le_refl _)⟩
  · rw [hd] at hd'
    cases hd'

/-- A dispatcher with replies to queue does nothing else, and one at rest takes a record. -/
theorem stage_act
    (hd : (∃ id replies, s.stages[d]? = some (.replying id replies)) ∨ s.stages[d]? = some .idle)
    (hr : a ≠ .reply d) (ht : a ≠ .take d) (ha : act h s a = some s') :
    s'.stages[d]? = s.stages[d]? := by
  obtain ⟨e, old, new, he, hold, hg, hst⟩ | ⟨-, hst, -⟩ := stages_act ha
  · by_cases hed : e = d
    · subst hed
      rw [hold] at hd
      generalize s'.ledger = l at hg
      obtain ⟨id, replies, hd⟩ | hd := hd
      · cases hd
        cases hg <;> cases he <;> exact absurd rfl hr
      · cases hd
        cases hg <;> cases he <;> exact absurd rfl ht
    · rw [hst, List.getElem?_set_ne hed]
  · rw [hst]

/-! ## Replies that come in time -/

/-- How often a dispatcher sees to a reply in a run before the outbound queue is closed. -/
def early (s : Dispatchers) (d : Nat) (acts : List Act) : Nat :=
  if s.manager.outbound.closed then 0 else (acts.takeWhile (· ≠ .closeOutbound)).count (.reply d)

theorem takeWhile_of_open (hr : run h s acts = some s') (ho : s'.manager.outbound.closed = false) :
    s.manager.outbound.closed = false ∧ ∀ more, (acts ++ more).takeWhile (· ≠ .closeOutbound) =
      acts ++ more.takeWhile (· ≠ .closeOutbound) := by
  obtain ⟨hopen, hno⟩ := not_or.mp (mt (closings_run hr).2.mpr (Bool.eq_false_iff.mp ho))
  refine ⟨Bool.eq_false_iff.mpr hopen, fun more => List.takeWhile_append_of_pos fun a ha => ?_⟩
  exact decide_eq_true (ne_of_mem_of_not_mem ha hno)

/-- While the queue is open, every reply comes in time. -/
theorem early_of_open (hr : run h s acts = some s') (ho : s'.manager.outbound.closed = false) :
    early s d acts = acts.count (.reply d) := by
  obtain ⟨hopen, htake⟩ := takeWhile_of_open hr ho
  have hall := htake []
  rw [List.append_nil, List.takeWhile_nil, List.append_nil] at hall
  rw [early, hopen, if_neg Bool.false_ne_true, hall]

theorem early_concat_of_open (hr : run h s acts = some s') (ho : s'.manager.outbound.closed = false)
    (a : Act) :
    early s d (acts ++ [a]) = early s d acts + [a].count (.reply d) := by
  obtain ⟨hopen, htake⟩ := takeWhile_of_open hr ho
  rw [early_of_open hr ho, early, hopen, if_neg Bool.false_ne_true, htake, List.count_append]
  by_cases hclose : a = .closeOutbound
  · subst hclose
    rfl
  · rw [List.takeWhile_cons_of_pos (by simpa using hclose), List.takeWhile_nil]

/-- Once it is closed, no reply does. -/
theorem early_concat_of_closed (hr : run h s acts = some s')
    (hc : s'.manager.outbound.closed = true) (a : Act) :
    early s d (acts ++ [a]) = early s d acts := by
  unfold early
  split_ifs with hclosed
  · rfl
  · rw [takeWhile_concat_of_mem (((closings_run hr).2.mp hc).resolve_left hclosed) a (by simp)]

/-- How far a dispatcher has come with its replies in a run in which it takes no record, and which
of them the outbound queue has got. -/
structure Progress (h : Handler) (s : Dispatchers) (d id : Nat) (replies : List Packet)
    (acts : List Act) (s' : Dispatchers) : Prop where
  stage : (acts.count (.reply d) ≤ replies.length ∧
      s'.stages[d]? = some (.replying id (replies.drop (acts.count (.reply d))))) ∨
    (acts.count (.reply d) = replies.length + 1 ∧ s'.stages[d]? = some .idle)
  added : added h d s acts = replies.take (early s d acts)

/-- The next reply is queued if the queue is open. -/
theorem Progress.reply (hp : Progress h s d id replies acts s') (hr : run h s acts = some s')
    (ha : act h s' (.reply d) = some s'') : Progress h s d id replies (acts ++ [.reply d]) s'' := by
  have hadded : Dispatchers.added h d s (acts ++ [.reply d]) =
      Dispatchers.added h d s acts ++ (adding? h d s' (.reply d)).toList :=
        Run.observe_concat (adding? h d) hr _
  have hcount : (acts ++ [Act.reply d]).count (.reply d) = acts.count (.reply d) + 1 := by
    rw [List.count_append, List.count_singleton_self]
  obtain ⟨hle, hst⟩ | ⟨-, hst⟩ := hp.stage
  · obtain hlt | hlen := Nat.lt_or_eq_of_le hle
    · rw [List.drop_eq_getElem_cons hlt] at hst
      obtain ⟨hst', hadd⟩ := act_reply_cons hst ha
      refine ⟨.inl ⟨by omega, by rw [hcount, hst']⟩, ?_⟩
      rw [hadded, hadd, hp.added]
      cases hc : s'.manager.outbound.closed with
      | true => rw [early_concat_of_closed hr hc, if_pos rfl, Option.toList_none, List.append_nil]
      | false =>
          rw [early_concat_of_open hr hc, early_of_open hr hc, List.count_singleton_self,
            List.take_succ_eq_append_getElem hlt]
          rfl
    · rw [List.drop_eq_nil_of_le hlen.ge] at hst
      obtain ⟨hst', hadd⟩ := act_reply_nil hst ha
      refine ⟨.inr ⟨by omega, hst'⟩, ?_⟩
      rw [hadded, hadd, Option.toList_none, List.append_nil, hp.added]
      cases hc : s'.manager.outbound.closed with
      | true => rw [early_concat_of_closed hr hc]
      | false =>
          rw [early_concat_of_open hr hc, early_of_open hr hc, List.take_of_length_le hlen.ge,
            List.take_of_length_le (hlen.ge.trans (Nat.le_add_right _ _))]
  · obtain ⟨j, ⟨hst', -⟩ | ⟨q, rest', hst', -⟩⟩ := act_reply ha <;> cases hst.symm.trans hst'

/-- Nobody else sees to the replies of a dispatcher. -/
theorem Progress.of_ne (hp : Progress h s d id replies acts s') (hr : run h s acts = some s')
    (ha : act h s' a = some s'') (hne : a ≠ .reply d) (ht : a ≠ .take d) :
    Progress h s d id replies (acts ++ [a]) s'' := by
  have hadded : Dispatchers.added h d s (acts ++ [a]) =
      Dispatchers.added h d s acts ++ (adding? h d s' a).toList :=
        Run.observe_concat (adding? h d) hr _
  have hnone : [a].count (.reply d) = 0 :=
    List.count_eq_zero.mpr (mt List.mem_singleton.mp hne.symm)
  have hcount : (acts ++ [a]).count (.reply d) = acts.count (.reply d) := by
    rw [List.count_append, hnone, Nat.add_zero]
  have hst : s''.stages[d]? = s'.stages[d]? := by
    obtain ⟨-, hst⟩ | ⟨-, hst⟩ := hp.stage
    · exact stage_act (.inl ⟨id, _, hst⟩) hne ht ha
    · exact stage_act (.inr hst) hne ht ha
  constructor
  · rw [hcount, hst]
    exact hp.stage
  · rw [hadded, adding?, if_neg hne, Option.toList_none, List.append_nil, hp.added]
    cases hc : s'.manager.outbound.closed with
    | true => rw [early_concat_of_closed hr hc]
    | false => rw [early_concat_of_open hr hc, hnone, Nat.add_zero]

theorem progress_run (hd : s.stages[d]? = some (.replying id replies)) (hr : run h s acts = some s')
    (ht : .take d ∉ acts) : Progress h s d id replies acts s' := by
  induction acts using List.reverseRecOn generalizing s' with
  | nil =>
      obtain rfl := Option.some.inj hr
      refine ⟨.inl ⟨Nat.zero_le _, hd⟩, ?_⟩
      unfold early
      split_ifs <;> rfl
  | append_singleton acts a ih =>
      obtain ⟨u, hu, ha⟩ := Run.foldlM_concat_eq_some hr
      rw [List.mem_append, List.mem_singleton, not_or] at ht
      have hp := ih hu ht.1
      by_cases hne : a = .reply d
      · subst hne
        exact hp.reply hu ha
      · exact hp.of_ne hu ha hne (Ne.symm ht.2)

-- The queue is closed between the replies to one record.
example : (run .splitting (start (.new .v4 .fifo .default) 7 1)
    [.arrive ⟨.v4 .loopback 500, [1, 2]⟩, .take 0, .route 0, .decide 0, .arm 0, .disarm 0, .enter 0,
      .leave 0, .reply 0,
      .closeOutbound, .reply 0, .reply 0]).map (·.manager.outbound.items.map (·.payload)) =
        some [[1]] := by cbv

/-! ## What the count tells -/

/-- What dispatches count, and what the outbound queue gets of it. -/
structure Counts (h : Handler) (s : Dispatchers) : Prop where
  counted : ∀ (timer : Timer Expiry) (t : Instant) (p : Packet),
    (s.manager.dispatch timer t h p).1.replies = (h p.key p.payload).length
  alone : ∀ (timer : Timer Expiry) (t : Instant) (p : Packet),
    (s.manager.dispatch timer t h p).2.1.outbound.items.length = s.manager.outbound.items.length +
      if s.manager.outbound.closed then 0 else (s.manager.dispatch timer t h p).1.replies
  meanwhile : ∀ (d : Nat) (p : Packet) (id : Nat) (created : Bool) (s₁ s₂ : Dispatchers)
    (more : List Act),
    s.stages[d]? = some (.handling p id created) → act h s (.leave d) = some s₁ →
      run h s₁ more = some s₂ →
      .take d ∉ more → s₂.stages[d]? = some .idle →
        (added h d s₁ more).map (·.payload) = (h p.key p.payload).take (early s₁ d more) ∧
        (s₂.manager.outbound.closed = false →
          (added h d s₁ more).length = (h p.key p.payload).length) ∧
        (s₁.manager.outbound.closed = true → added h d s₁ more = [])

/-- The count of a dispatch is that of the replies it has queued, if the outbound queue stays open
to the end. -/
theorem count_true_while_open (h : Handler) (family : Family) (order : Discipline)
    (policy : ExpiryPolicy) (now : Instant) (count : Nat) (acts : List Act)
    (hr : run h (start (.new family order policy) now count) acts = some s) : Counts h s := by
  obtain ⟨hs, hrouted⟩ := routed_run (sound_start ..) (routed_start ..) hr
  have hcounted : ∀ (timer : Timer Expiry) (t : Instant) (p : Packet),
      (s.manager.dispatch timer t h p).1.replies = (h p.key p.payload).length := by
    intro timer t p
    obtain ⟨id, created, m, x, hroute, -, hx, hkey, -⟩ := route_session hs p
    rw [dispatch_replies hroute hx, hkey]
  constructor
  · exact hcounted
  · intro timer t p
    obtain ⟨id, created, m, x, hroute, ho, hx, hkey, -⟩ := route_session hs p
    rw [hcounted, dispatch_outbound hroute ho hx, hkey]
    split_ifs
    · rfl
    · rw [List.length_append, List.length_map]
  · intro d p id created s₁ s₂ more hd hleave hmore ht hidle
    obtain ⟨x, hx, hkey⟩ := hrouted.fits d _ hd
    have hl := (List.getElem?_eq_some_iff.mp hd).choose
    obtain ⟨q, j, created', hq, rfl⟩ := act_leave hleave
    rw [hd] at hq
    cases hq
    rw [process_of_some hx, hkey] at hmore ⊢
    have hp := progress_run (List.getElem?_set_self hl) hmore ht
    have hpayloads :
        ((h p.key p.payload).map (Packet.mk x.peer)).map (·.payload) = h p.key p.payload := by
      rw [List.map_map]
      exact List.map_id _
    refine ⟨?_, fun ho => ?_, fun hc => ?_⟩
    · rw [hp.added, List.map_take, hpayloads]
    · obtain ⟨-, hst⟩ | ⟨hcount, -⟩ := hp.stage
      · cases hidle.symm.trans hst
      · rw [List.length_map] at hcount
        rw [hp.added, early_of_open hmore ho, hcount, List.length_take, List.length_map]
        exact Nat.min_eq_right (Nat.le_succ _)
    · rw [hp.added, early, if_pos hc, List.take_zero]

/-- A dispatcher is with a handler that gives two replies. -/
def twoReplies : List Act :=
  [.arrive ⟨.v4 .loopback 500, [1, 2]⟩, .take 0, .route 0, .decide 0, .arm 0, .disarm 0, .enter 0]

theorem count_true_while_open_twoReplies :
    ∃ s, run .splitting (start (.new .v4 .fifo .default) 7 1) twoReplies = some s ∧
      Counts .splitting s ∧
      (s.manager.dispatch s.timer s.now .splitting ⟨.v4 .loopback 500, [1, 2]⟩).1.replies = 2 := by
  obtain ⟨s, hr⟩ : ∃ s, run .splitting (start (.new .v4 .fifo .default) 7 1) twoReplies = some s :=
    Option.isSome_iff_exists.mp (by cbv)
  have hcounts := count_true_while_open .splitting .v4 .fifo .default 7 1 twoReplies hr
  exact ⟨s, hr, hcounts, hcounts.counted s.timer s.now _⟩

/-- Replies are counted even if the outbound queue takes none of them. -/
theorem not_always_queued :
    ¬ ∀ (h : Handler) (family : Family) (order : Discipline) (policy : ExpiryPolicy) (now : Instant)
        (count : Nat) (acts : List Act) (s : Dispatchers) (p : Packet),
      run h (start (.new family order policy) now count) acts = some s →
        (s.manager.dispatch s.timer s.now h p).2.1.outbound.items.length =
          s.manager.outbound.items.length + (s.manager.dispatch s.timer s.now h p).1.replies := by
  intro hall
  have hcounts : (run .echo (start (.new .v4 .fifo .default) 7 1) [.closeOutbound]).map (fun s =>
      ((s.manager.dispatch s.timer s.now .echo ⟨.v4 .loopback 500, [1]⟩).2.1.outbound.items.length,
        s.manager.outbound.items.length,
        (s.manager.dispatch s.timer s.now .echo ⟨.v4 .loopback 500, [1]⟩).1.replies)) =
          some (0, 0, 1) := by cbv
  obtain ⟨s, hr, hs⟩ := Option.map_eq_some_iff.mp hcounts
  rw [Prod.mk.injEq, Prod.mk.injEq] at hs
  have heq := hall .echo .v4 .fifo .default 7 1 [.closeOutbound] s ⟨.v4 .loopback 500, [1]⟩ hr
  rw [hs.1, hs.2.1, hs.2.2] at heq
  cases heq

end Dispatchers

end SessionDispatch
