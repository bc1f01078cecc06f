import SessionDispatch.Proofs.Session.Lines

/-!
# Records that overtake each other

A queue that gives the oldest record first hands records out as they came, but what several
dispatchers do with them is not in that order: a record that was taken later may be handled first,
and a reply that was given later may be queued first. Neither happens to the records of a peer that
only one dispatcher at a time has to do with.
-/

namespace SessionDispatch.Dispatchers

open SessionManager

variable {h : Handler} {s s' : Dispatchers} {a : Act} {acts : List Act} {keep : PeerKey → Bool}

def taking? (s : Dispatchers) : Act → Option Packet
  | .take _ => s.manager.inbound.take.1
  | _ => none

/-- All records that dispatchers take in a run, in order. -/
def taken (h : Handler) : Dispatchers → List Act → List Packet := Run.observe (act h) taking?

/-- A record is accepted behind those that wait and taken from before them. -/
theorem taken_act (ho : s.manager.inbound.order = .fifo) (ha : act h s a = some s') :
    ∃ more, s'.accepted = s.accepted ++ more ∧
      s.manager.inbound.items ++ more = (taking? s a).toList ++ s'.manager.inbound.items := by
  obtain ⟨d, old, new, -, -, hg, -⟩ | ⟨hn, -, hl⟩ := stages_act ha
  · refine ⟨[], ?_⟩
    change s'.ledger.accepted = _ ∧ _ = _ ++ s'.ledger.queued
    generalize s'.ledger = l at hg ⊢
    cases hg with
    | take hp =>
        refine ⟨(List.append_nil _).symm, ?_⟩
        rw [taking?, hp, List.append_nil]
        exact Queue.items_of_take ho hp
    | finish hq _ =>
        refine ⟨(List.append_nil _).symm, ?_⟩
        rw [taking?, hq, List.append_nil]
        rfl
    | route | mustArm _ | skip _ | arm _ _ | disarm | enter _ _ | leave | reply _ | drop _ | rest =>
        exact ⟨(List.append_nil _).symm, List.append_nil _⟩
  · have hnone : taking? s a = none := by
      cases a with
      | take d => cases hn
      | _ => rfl
    rw [hnone]
    obtain hl | ⟨p, -, -, hl⟩ := hl
    · refine ⟨[], (congrArg Ledger.accepted hl).trans (List.append_nil _).symm, ?_⟩
      rw [List.append_nil]
      exact (congrArg Ledger.queued hl).symm
    · exact ⟨[p], congrArg Ledger.accepted hl, (congrArg Ledger.queued hl).symm⟩

/-- Records are taken as they were accepted. -/
theorem taken_run {s₀ : Dispatchers} (hb : s₀.Blank) (hi : s₀.manager.inbound.items = [])
    (ho : s₀.manager.inbound.order = .fifo) (hr : run h s₀ acts = some s) :
    s.accepted = taken h s₀ acts ++ s.manager.inbound.items := by
  induction acts using List.reverseRecOn generalizing s with
  | nil =>
      obtain rfl := Option.some.inj hr
      rw [hi]
      exact congrArg Ledger.accepted hb.ledger
  | append_singleton acts a ih =>
      obtain ⟨u, hu, ha⟩ := Run.foldlM_concat_eq_some hr
      obtain ⟨more, hacc, hitems⟩ := taken_act ((order_run hu).trans ho) ha
      have htaken : taken h s₀ (acts ++ [a]) = taken h s₀ acts ++ (taking? u a).toList :=
        Run.observe_concat taking? hu a
      rw [hacc, ih hu, htaken, List.append_assoc, hitems, List.append_assoc]

/-- The answers to the calls for some peers are the answers that go to them. -/
theorem among_answers (h : Handler) (calls : List (PeerKey × List UInt8)) :
    among keep (calls.flatMap h.answers) = (among keep calls).flatMap h.answers := by
  induction calls with
  | nil => rfl
  | cons call calls ih =>
      have hcall : among keep (h.answers call) = if keep call.1 then h.answers call else [] := by
        unfold among Handler.answers
        split_ifs with hk <;> simp [hk]
      rw [List.flatMap_cons, among_append, ih, hcall, among, among, List.filter_cons]
      split_ifs
      · rw [List.flatMap_cons]
      · rfl

/-- Dispatchers take records in the order in which the queue accepted them, and all but those that
they hold have been handed to the handler. Calls and replies come in the same order for peers of
whom no two dispatchers ever hold records, or owe replies, at once. With a single dispatcher that is
always so. -/
theorem order_kept_unless_shared (h : Handler) (family : Family) (policy : ExpiryPolicy)
    (now : Instant) (count : Nat) (acts : List Act)
    (hr : run h (start (.new family .fifo policy) now count) acts = some s)
    (keep : PeerKey → Bool) :
    let s₀ := start (.new family .fifo policy) now count
    s.accepted = taken h s₀ acts ++ s.manager.inbound.items ∧
      ((taken h s₀ acts).map Packet.keyed).Perm
          (s.handled ++ (s.stages.flatMap Stage.held).map Packet.keyed) ∧
      (Throughout h s₀ acts (fun u => Alone (Stage.heldFor keep) u.stages) →
        among keep ((taken h s₀ acts).map Packet.keyed) =
          among keep s.handled ++ s.stages.flatMap (Stage.heldFor keep)) ∧
      (Throughout h s₀ acts (fun u => Alone (Stage.owedTo h keep) u.stages) →
        (among keep s.handled).flatMap h.answers =
          among keep ((s.replied ++ s.dropped).map Packet.keyed) ++
            s.stages.flatMap (Stage.owedTo h keep)) ∧
      (count ≤ 1 → Throughout h s₀ acts fun u =>
        Alone (Stage.heldFor keep) u.stages ∧ Alone (Stage.owedTo h keep) u.stages) := by
  intro s₀
  have hb : s₀.Blank := blank_start family .fifo policy now count
  have hs₀ : s₀.Accounted h count := accounted_start h family .fifo policy now count
  have htaken : s.accepted = taken h s₀ acts ++ s.manager.inbound.items := taken_run hb rfl rfl hr
  have hnone : ∀ {β : Type} (f : Stage → List β), f .idle = [] → s₀.stages.flatMap f = [] := by
    intro β f hf
    apply List.flatMap_eq_nil_iff.mpr
    intro stage hm
    rw [(List.mem_replicate.mp hm).2]
    exact hf
  refine ⟨htaken, ?_, ?_, ?_, ?_⟩
  · have hrecords := (hs₀.run hr).balanced.records
    rw [show s.ledger.accepted = _ from htaken, List.map_append, List.map_append,
      ← List.append_assoc] at hrecords
    exact (List.perm_append_right_iff _).mp hrecords
  · intro halone
    have hl : s₀.ledger.RecordsInLine keep s₀.stages := by
      rw [Ledger.RecordsInLine, hnone (Stage.heldFor keep) rfl, hb.ledger]
      rfl
    have hrecords := records_run hs₀ hr rfl hl halone
    rw [Ledger.RecordsInLine, show s.ledger.accepted = _ from htaken, List.map_append, among_append,
      ← List.append_assoc] at hrecords
    exact List.append_cancel_right hrecords
  · intro halone
    have hl : s₀.ledger.RepliesInLine h keep s₀.stages := by
      rw [Ledger.RepliesInLine, hnone (Stage.owedTo h keep) rfl, hb.ledger]
      rfl
    rw [← among_answers]
    exact replies_run hs₀ hr hl halone
  · intro hc before after u _ hu
    exact ⟨alone_of_single hs₀ hu _ hc, alone_of_single hs₀ hu _ hc⟩

/-- Two records of one peer, with one of another between them, and a single dispatcher. -/
def inTurn : List Act :=
  [.arrive ⟨.v4 .loopback 500, [1]⟩, .arrive ⟨.v4 .loopback 501, [9]⟩,
    .arrive ⟨.v4 .loopback 500, [2]⟩, .take 0, .route 0, .decide 0, .arm 0, .disarm 0, .enter 0,
    .leave 0, .reply 0, .reply 0, .take 0, .route 0, .decide 0, .arm 0, .disarm 0, .enter 0,
    .leave 0, .reply 0, .reply 0, .take 0, .route 0, .decide 0, .enter 0, .leave 0, .reply 0,
    .reply 0]

theorem order_kept_unless_shared_inTurn :
    ∃ s, run .echo (start (.new .v4 .fifo .default) 7 1) inTurn = some s ∧
      among (· = .ofAddress (.v4 .loopback 500)) s.handled =
        [(.ofAddress (.v4 .loopback 500), [1]), (.ofAddress (.v4 .loopback 500), [2])] := by
  obtain ⟨s, hr⟩ : ∃ s, run .echo (start (.new .v4 .fifo .default) 7 1) inTurn = some s :=
    Option.isSome_iff_exists.mp (by cbv)
  have hst :
      (run .echo (start (.new .v4 .fifo .default) 7 1) inTurn).map stages = some [.idle] := by cbv
  rw [hr, Option.map_some, Option.some.injEq] at hst
  obtain ⟨-, -, hrecords, -, halone⟩ :=
    order_kept_unless_shared .echo .v4 .default 7 1 inTurn hr (· = .ofAddress (.v4 .loopback 500))
  have hheld := hrecords fun before after u he hu => (halone (Nat.le_refl 1) before after u he hu).1
  have htaken : among (· = .ofAddress (.v4 .loopback 500))
      ((taken .echo (start (.new .v4 .fifo .default) 7 1) inTurn).map Packet.keyed) =
        [(.ofAddress (.v4 .loopback 500), [1]), (.ofAddress (.v4 .loopback 500), [2])] := by cbv
  rw [htaken, hst] at hheld
  refine ⟨s, hr, ?_⟩
  simpa [Stage.heldFor, Stage.held, among] using hheld.symm

/-- Two dispatchers have taken a record of one peer each, and the later record is handled and
answered first. -/
def swapped : List Act :=
  [.arrive ⟨.v4 .loopback 500, [1]⟩, .arrive ⟨.v4 .loopback 500, [2]⟩, .take 0, .take 1, .route 1,
    .decide 1, .arm 1, .disarm 1, .enter 1, .leave 1, .reply 1, .reply 1, .route 0, .decide 0,
    .enter 0, .leave 0, .reply 0, .reply 0]

/-- The handler gets the records in order, but the dispatcher that called it first is the last to
queue its reply. -/
def crossed : List Act :=
  [.arrive ⟨.v4 .loopback 500, [1]⟩, .arrive ⟨.v4 .loopback 500, [2]⟩, .take 0, .take 1, .route 0,
    .decide 0, .arm 0, .disarm 0, .enter 0, .leave 0, .route 1, .decide 1, .enter 1, .leave 1,
    .reply 1, .reply 1, .reply 0, .reply 0]

/-- So with several dispatchers neither calls nor replies need come in the order of the records. -/
theorem not_in_arrival_order :
    (¬ ∀ (h : Handler) (family : Family) (policy : ExpiryPolicy) (now : Instant) (count : Nat)
        (acts : List Act) (s : Dispatchers),
      run h (start (.new family .fifo policy) now count) acts = some s →
        ∀ k, (among (· = k) s.handled).Sublist (among (· = k) (s.accepted.map Packet.keyed))) ∧
    ¬ ∀ (h : Handler) (family : Family) (policy : ExpiryPolicy) (now : Instant) (count : Nat)
        (acts : List Act) (s : Dispatchers),
      run h (start (.new family .fifo policy) now count) acts = some s →
        ∀ k, (among (· = k) (s.replied.map Packet.keyed)).Sublist
          ((among (· = k) s.handled).flatMap h.answers) := by
  constructor
  · intro hall
    have hs : (run .echo (start (.new .v4 .fifo .default) 7 2) swapped).map (fun s =>
        (among (· = .ofAddress (.v4 .loopback 500)) s.handled,
          among (· = .ofAddress (.v4 .loopback 500)) (s.accepted.map Packet.keyed))) =
        some ([(.ofAddress (.v4 .loopback 500), [2]), (.ofAddress (.v4 .loopback 500), [1])],
          [(.ofAddress (.v4 .loopback 500), [1]), (.ofAddress (.v4 .loopback 500), [2])]) := by cbv
    obtain ⟨s, hr, hs⟩ := Option.map_eq_some_iff.mp hs
    have hsub := hall .echo .v4 .default 7 2 swapped s hr (.ofAddress (.v4 .loopback 500))
    obtain ⟨hhandled, haccepted⟩ := Prod.mk.inj hs
    rw [hhandled, haccepted] at hsub
    have heq := hsub.eq_of_length rfl
    simp at heq
  · intro hall
    have hs : (run .echo (start (.new .v4 .fifo .default) 7 2) crossed).map (fun s =>
        (among (· = .ofAddress (.v4 .loopback 500)) (s.replied.map Packet.keyed),
          (among (· = .ofAddress (.v4 .loopback 500)) s.handled).flatMap Handler.echo.answers)) =
        some ([(.ofAddress (.v4 .loopback 500), [2]), (.ofAddress (.v4 .loopback 500), [1])],
          [(.ofAddress (.v4 .loopback 500), [1]), (.ofAddress (.v4 .loopback 500), [2])]) := by cbv
    obtain ⟨s, hr, hs⟩ := Option.map_eq_some_iff.mp hs
    have hsub := hall .echo .v4 .default 7 2 crossed s hr (.ofAddress (.v4 .loopback 500))
    obtain ⟨hreplied, hanswers⟩ := Prod.mk.inj hs
    rw [hreplied, hanswers] at hsub
    have heq := hsub.eq_of_length rfl
    simp at heq

end SessionDispatch.Dispatchers
