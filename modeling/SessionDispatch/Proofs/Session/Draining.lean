import SessionDispatch.Proofs.Session.Lines

/-!
# Dispatchers work off what has arrived

Every act of a dispatcher uses up part of the work that the accepted records bring. When no
dispatcher can go on, no record is left, whether or not the inbound queue is closed, and all replies
are queued or dropped.
-/

namespace SessionDispatch.Dispatchers

open SessionManager

variable {h : Handler} {s s' : Dispatchers} {a : Act} {acts : List Act} {d : Nat} {old new : Stage}

/-! ## Work -/

/-- The acts that a record takes if its session is armed, for which the handler's replies
are counted. -/
def work (h : Handler) (p : Packet) : Nat := (h p.key p.payload).length + 8

/-- The acts that a dispatcher has still to do before it takes the next record, and the one with
which it ends. -/
def Stage.work (h : Handler) : Stage → Nat
  | .taken p => (h p.key p.payload).length + 8
  | .routed p _ _ => (h p.key p.payload).length + 7
  | .arming p _ _ => (h p.key p.payload).length + 6
  | .disarming p _ _ _ => (h p.key p.payload).length + 5
  | .ready p _ _ => (h p.key p.payload).length + 4
  | .handling p _ _ => (h p.key p.payload).length + 3
  | .replying _ replies => replies.length + 2
  | .idle => 1
  | .ended => 0

def workLeft (h : Handler) (s : Dispatchers) : Nat :=
  (s.manager.inbound.items.map (work h)).sum + (s.stages.map (Stage.work h)).sum

theorem sum_map_set (f : Stage → Nat) {stages : List Stage} (hd : stages[d]? = some old)
    (new : Stage) :
    f old + ((stages.set d new).map f).sum = f new + (stages.map f).sum := by
  have hsum := (flatMap_set_perm (fun stage => [f stage]) hd new).sum_nat
  simpa only [← List.map_eq_flatMap, List.singleton_append, List.sum_cons] using hsum

/-- A dispatcher that goes on has less to do than before. -/
theorem work_goes (hr : s.Routed) (hd : s.stages[d]? = some old) {l : Ledger}
    (hg : Goes h s a old new l) :
    (l.queued.map (work h)).sum + new.work h + 1 ≤
    (s.manager.inbound.items.map (work h)).sum + old.work h := by
  cases hg with
  | take hp =>
      have hsum := ((Queue.take_perm hp).map (work h)).sum_nat
      rw [List.map_cons, List.sum_cons] at hsum
      simp only [Stage.work, work] at hsum ⊢
      omega
  | leave =>
      have hlen := congrArg List.length (hr.process_eq (h := h) hd)
      rw [List.length_map, Handler.answers, List.length_map] at hlen
      simp only [Stage.work, ledger, hlen, Packet.keyed]
      omega
  | finish _ _ | route | mustArm _ | skip _ | arm _ _ | disarm | enter _ _ | reply _ | drop _
  | rest =>
      simp only [Stage.work, ledger, List.length_cons]
      omega

/-- Work comes with the records alone, and goes with every act of a dispatcher. -/
theorem workLeft_act (hr : s.Routed) (ha : act h s a = some s') :
    (if a.dispatcher?.isSome then 1 else 0) + s'.workLeft h + (s.accepted.map (work h)).sum ≤
      s.workLeft h + (s'.accepted.map (work h)).sum := by
  obtain ⟨d, old, new, ho, hd, hg, hst⟩ | ⟨ho, hst, hl | ⟨p, -, -, hl⟩⟩ := stages_act ha
  · have hwork := work_goes hr hd hg
    have hsum := sum_map_set (Stage.work h) hd new
    have hacc : s'.accepted = s.accepted := by
      change s'.ledger.accepted = s.ledger.accepted
      generalize s'.ledger = l at hg ⊢
      cases hg <;> rfl
    change (s'.manager.inbound.items.map (work h)).sum + _ + 1 ≤ _ at hwork
    rw [ho, hacc, workLeft, workLeft, hst, Option.isSome_some, if_pos rfl]
    omega
  · have hacc : s'.accepted = s.accepted := congrArg Ledger.accepted hl
    have hq : s'.manager.inbound.items = s.manager.inbound.items := congrArg Ledger.queued hl
    rw [ho, hacc, workLeft, workLeft, hst, hq]
    simp
  · have hacc : s'.accepted = s.accepted ++ [p] := congrArg Ledger.accepted hl
    have hq : s'.manager.inbound.items = s.manager.inbound.items ++ [p] := congrArg Ledger.queued hl
    rw [ho, hacc, workLeft, workLeft, hst, hq]
    simp only [List.map_append, List.sum_append, Option.isSome_none, Bool.false_eq_true, if_false]
    omega

/-! ## Rest -/

/-- No dispatcher can go on. -/
def Rests (h : Handler) (s : Dispatchers) : Prop :=
  ∀ a : Act, a.dispatcher?.isSome → act h s a = none

/-- A dispatcher that cannot go on waits at an empty queue or has ended. Locks keep nobody waiting,
since who holds one can go on. -/
theorem Rests.stage_eq (hn : s.Rests h) (hr : s.Routed) {stage : Stage}
    (hd : s.stages[d]? = some stage) :
    stage = .ended ∨
      stage = .idle ∧ s.manager.inbound.items = [] ∧ s.manager.inbound.closed = false := by
  have hlocked : ∀ id, s.isLocked id = false := fun id => by
    refine Bool.eq_false_iff.mpr fun hl => ?_
    obtain ⟨e, p, created, he⟩ := isLocked_eq_true.mp hl
    have hleave := hn (.leave e) rfl
    simp [act, he] at hleave
  have hrenewing : ∀ id, s.isRenewing id = false := fun id => by
    refine Bool.eq_false_iff.mpr fun hl => ?_
    obtain ⟨e, p, created, previous, he⟩ := isRenewing_eq_true.mp hl
    have hdisarm := hn (.disarm e) rfl
    simp [act, he] at hdisarm
  cases stage with
  | ended => exact .inl rfl
  | idle =>
      refine .inr ⟨rfl, ?_⟩
      have htake := hn (.take d) rfl
      cases hq : s.manager.inbound.take with
      | mk first inbound =>
          simp only [act, hd, hq] at htake
          cases first with
          | some p => cases htake
          | none =>
              refine ⟨(Queue.take_eq_none_iff _).mp (congrArg Prod.fst hq),
                Bool.eq_false_iff.mpr fun hc => ?_⟩
              simp [hc] at htake
  | taken p =>
      have hroute := hn (.route d) rfl
      simp [act, hd] at hroute
  | routed p id created =>
      have hdecide := hn (.decide d) rfl
      simp [act, hd] at hdecide
  | arming p id created =>
      have harm := hn (.arm d) rfl
      simp [act, hd, hrenewing id] at harm
  | disarming p id created previous =>
      have hdisarm := hn (.disarm d) rfl
      simp [act, hd] at hdisarm
  | ready p id created =>
      obtain ⟨x, hx, -⟩ := hr.fits d _ hd
      have henter := hn (.enter d) rfl
      simp [act, hd, session?, hx, hlocked id] at henter
  | handling p id created =>
      have hleave := hn (.leave d) rfl
      simp [act, hd] at hleave
  | replying id replies =>
      have hreply := hn (.reply d) rfl
      cases replies <;> simp [act, hd] at hreply

theorem Rests.queue_eq (hn : s.Rests h) (hr : s.Routed) (hst : s.stages ≠ [])
    (he : ∀ d : Nat, s.stages[d]? = some .ended →
      s.manager.inbound.closed = true ∧ s.manager.inbound.items = []) :
    s.manager.inbound.items = [] := by
  obtain ⟨stage, stages, hs⟩ := List.exists_cons_of_ne_nil hst
  have hd : s.stages[0]? = some stage := by rw [hs, List.getElem?_cons_zero]
  obtain rfl | ⟨-, hq, -⟩ := hn.stage_eq hr hd
  · exact (he 0 hd).2
  · exact hq

/-- Dispatchers at rest hold nothing and owe nothing. -/
theorem Rests.flatMap_eq (hn : s.Rests h) (hr : s.Routed) :
    s.stages.flatMap Stage.held = [] ∧ s.stages.flatMap (Stage.owed h) = [] := by
  refine ⟨List.flatMap_eq_nil_iff.mpr fun stage hm => ?_,
    List.flatMap_eq_nil_iff.mpr fun stage hm => ?_⟩ <;>
  · obtain ⟨d, hd⟩ := List.mem_iff_getElem?.mp hm
    obtain rfl | ⟨rfl, -⟩ := hn.stage_eq hr hd <;> rfl

/-! ## Runs -/

/-- Dispatchers cannot go on forever without new records. -/
theorem workLeft_run {count : Nat} (hs : s.Accounted h count) (hr : run h s acts = some s') :
    acts.countP (·.dispatcher?.isSome) + s'.workLeft h + (s.accepted.map (work h)).sum ≤
      s.workLeft h + (s'.accepted.map (work h)).sum := by
  induction acts using List.reverseRecOn generalizing s' with
  | nil =>
      obtain rfl := Option.some.inj hr
      simp
  | append_singleton acts a ih =>
      obtain ⟨u, hu, ha⟩ := Run.foldlM_concat_eq_some hr
      have hi := ih hu
      have hact := workLeft_act (hs.run hu).routed ha
      rw [List.countP_append, List.countP_singleton]
      omega

/-- After the outbound queue is closed, no reply is added to it. -/
theorem replied_run_of_closed (ho : s.manager.outbound.closed = true)
    (hr : run h s acts = some s') :
    s'.replied = s.replied := by
  have hall : s'.manager.outbound.closed = true ∧ s'.replied = s.replied :=
    Run.invariant (fun t => t.manager.outbound.closed = true ∧ t.replied = s.replied)
      (fun t a t' ht ha => ⟨(queueing_act ha).outClosed.mpr (.inl ht.1),
        (replied_act ht.1 ha).trans ht.2⟩)
      ⟨ho, rfl⟩ hr
  exact hall.2

/-- Whatever dispatchers, producers and senders do, and whenever the queues close: every record that
was accepted is handed to the handler once, under the key of its peer, and no dispatcher ends
before. Every reply of the handler is queued once, if the outbound queue is still open. -/
theorem records_handled_once (h : Handler) (family : Family) (order : Discipline)
    (policy : ExpiryPolicy) (now : Instant) (count : Nat) (acts : List Act)
    (hr : run h (start (.new family order policy) now count) acts = some s) :
    let s₀ := start (.new family order policy) now count
    s.accepted = (acts.takeWhile (· ≠ .closeInbound)).filterMap Act.arriving? ∧
      (s.accepted.map Packet.keyed).Perm
        (s.handled ++ (s.stages.flatMap Stage.held ++ s.manager.inbound.items).map Packet.keyed) ∧
      (∀ d : Nat, s.stages[d]? = some .ended →
        .closeInbound ∈ acts ∧ s.manager.inbound.items = []) ∧
      (0 < count → s.Rests h →
        (s.accepted.map Packet.keyed).Perm s.handled ∧
          (s.handled.flatMap h.answers).Perm ((s.replied ++ s.dropped).map Packet.keyed) ∧
          (.closeInbound ∈ acts → ∀ stage ∈ s.stages, stage = .ended)) ∧
      acts.countP (·.dispatcher?.isSome) ≤ (s.accepted.map (work h)).sum + count ∧
      (s.handled.flatMap h.answers).Perm
        ((s.replied ++ s.dropped).map Packet.keyed ++ s.stages.flatMap (Stage.owed h)) ∧
      s.replied.Perm (sent h s₀ acts ++ s.manager.outbound.items) ∧
      (.closeOutbound ∉ acts → s.dropped = []) ∧
      (∀ before after u, acts = before ++ .closeOutbound :: after → run h s₀ before = some u →
        s.replied = u.replied) ∧
      (count = 1 → order = .fifo →
        s.accepted.map Packet.keyed =
            s.handled ++ (s.stages.flatMap Stage.held ++ s.manager.inbound.items).map Packet.keyed ∧
          s.handled.flatMap h.answers =
            (sent h s₀ acts ++ s.manager.outbound.items ++ s.dropped).map Packet.keyed ++
              s.stages.flatMap (Stage.owed h)) := by
  intro s₀
  have hb : s₀.Blank := blank_start family order policy now count
  have hs₀ : s₀.Accounted h count := accounted_start h family order policy now count
  have hs := hs₀.run hr
  obtain ⟨hin, hout⟩ := closed_run hb hr
  obtain ⟨-, hperm, heq⟩ := replied_run hb hr
  refine ⟨accepted_run hb hr, hs.balanced.records, fun d hd => ?_, fun hcount hn => ?_, ?_,
    hs.balanced.replies,
    hperm, fun hopen => hs.kept (Bool.eq_false_iff.mpr (mt hout.mp hopen)), ?_, ?_⟩
  · obtain ⟨hc, hi⟩ := hs.ended d hd
    exact ⟨hin.mp hc, hi⟩
  · obtain ⟨hheld, howed⟩ := hn.flatMap_eq hs.routed
    have hst : s.stages ≠ [] := List.ne_nil_of_length_pos (hs.length ▸ hcount)
    have hrecords := hs.balanced.records
    have hreplies := hs.balanced.replies
    rw [hheld, show s.ledger.queued = [] from hn.queue_eq hs.routed hst hs.ended] at hrecords
    rw [howed] at hreplies
    refine ⟨by simpa [ledger] using hrecords, by simpa [ledger] using hreplies,
      fun hclose stage hm => ?_⟩
    obtain ⟨d, hd⟩ := List.mem_iff_getElem?.mp hm
    obtain he | ⟨-, -, ho⟩ := hn.stage_eq hs.routed hd
    · exact he
    · exact absurd (hin.mpr hclose) (Bool.eq_false_iff.mp ho)
  · have hwork := workLeft_run hs₀ hr
    have hstart : s₀.workLeft h = count := by
      simp [s₀, start, workLeft, SessionManager.new, Queue.new, Stage.work]
    have hnone : s₀.accepted = [] := congrArg Ledger.accepted hb.ledger
    rw [hnone, hstart, List.map_nil, List.sum_nil] at hwork
    omega
  · intro before after u hacts hu
    rw [hacts, run, List.foldlM_append] at hr
    obtain ⟨u', hu', hr⟩ := Option.bind_eq_some_iff.mp hr
    obtain rfl : u' = u := Option.some.inj (hu'.symm.trans hu)
    obtain ⟨v, hv, hr⟩ := Run.foldlM_cons_eq_some hr
    obtain rfl := Option.some.inj hv
    exact (replied_run_of_closed rfl hr).trans rfl
  · rintro rfl rfl
    obtain ⟨stage, hst, hl⟩ := ordered_run hs₀ rfl rfl ⟨rfl, rfl⟩ hr
    rw [hst, List.flatMap_singleton, List.flatMap_singleton]
    refine ⟨hl.records, hl.replies.trans ?_⟩
    rw [← heq rfl]
    rfl

/-- Two records of one peer. Both queues are closed while one dispatcher is in the handler and the
other waits for the lock. -/
def closedEarly : List Act :=
  [.arrive ⟨.v4 .loopback 500, [1]⟩, .arrive ⟨.v4 .loopback 500, [2]⟩, .take 0, .route 0, .decide 0,
    .arm 0, .disarm 0, .enter 0, .closeInbound, .arrive ⟨.v4 .loopback 500, [3]⟩, .take 1, .route 1,
    .decide 1, .leave 0, .enter 1, .reply 0, .reply 0, .closeOutbound, .leave 1, .reply 1, .reply 1,
    .take 0, .take 1]

theorem records_handled_once_closedEarly :
    ∃ s, run .echo (start (.new .v4 .fifo .default) 7 2) closedEarly = some s ∧
      s.stages = [.ended, .ended] ∧ s.replied = [⟨.v4 .loopback 500, [1]⟩] ∧
      s.handled.Perm
        [(.ofAddress (.v4 .loopback 500), [1]), (.ofAddress (.v4 .loopback 500), [2])] ∧
      s.dropped.map Packet.keyed = [(.ofAddress (.v4 .loopback 500), [2])] := by
  obtain ⟨s, hr⟩ : ∃ s, run .echo (start (.new .v4 .fifo .default) 7 2) closedEarly = some s :=
    Option.isSome_iff_exists.mp (by cbv)
  have hs : (run .echo (start (.new .v4 .fifo .default) 7 2) closedEarly).map
      (fun s => (s.stages, s.replied)) =
      some ([.ended, .ended], [⟨.v4 .loopback 500, [1]⟩]) := by cbv
  rw [hr, Option.map_some, Option.some.injEq, Prod.mk.injEq] at hs
  have harrived : (closedEarly.takeWhile (· ≠ .closeInbound)).filterMap Act.arriving? =
      [⟨.v4 .loopback 500, [1]⟩, ⟨.v4 .loopback 500, [2]⟩] := by decide
  obtain ⟨hacc, hrecords, hended, -, -, hreplies, -⟩ :=
    records_handled_once .echo .v4 .fifo .default 7 2 closedEarly hr
  have hempty := (hended 0 (by rw [hs.1]; rfl)).2
  rw [hs.1, hempty, hacc, harrived] at hrecords
  have hhandled : s.handled.Perm [(.ofAddress (.v4 .loopback 500), [1]),
        (.ofAddress (.v4 .loopback 500), [2])] := by
    simpa [Stage.held] using! hrecords.symm
  have hanswers := (hhandled.flatMap_right Handler.echo.answers).symm.trans hreplies
  rw [hs.1, hs.2] at hanswers
  have hlast : (Handler.echo.answers (.ofAddress (.v4 .loopback 500), [2])).Perm
      (s.dropped.map Packet.keyed) := by
    simpa [Stage.owed] using! hanswers.cons_inv
  exact ⟨s, hr, hs.1, hs.2, hhandled, List.perm_singleton.mp hlast.symm⟩

end SessionDispatch.Dispatchers
