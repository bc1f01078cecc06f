import SessionDispatch.Proofs.Session.Closing

/-!
# Records and replies in line

A queue that gives the oldest record first hands records out as they came. The handler gets the
records of some peers as they came for as long as no two dispatchers hold one at once, and the
replies are queued as the handler was called for as long as no two dispatchers owe one at once. A
single dispatcher keeps both orders.
-/

namespace SessionDispatch.Dispatchers

open SessionManager

variable {h : Handler} {s s' : Dispatchers} {a : Act} {acts : List Act} {d : Nat} {old new : Stage}

/-! ## Invariants -/

/-- What holds of records, replies and dispatchers after every run. -/
structure Accounted (h : Handler) (count : Nat) (s : Dispatchers) : Prop where
  sound : s.Sound
  routed : s.Routed
  balanced : s.ledger.Balanced h s.stages
  length : s.stages.length = count
  ended : ∀ d : Nat, s.stages[d]? = some .ended → s.manager.inbound.closed = true ∧
    s.manager.inbound.items = []
  kept : s.manager.outbound.closed = false → s.dropped = []

theorem accounted_start (h : Handler) (family : Family) (order : Discipline) (policy : ExpiryPolicy)
    (now : Instant) (count : Nat) :
    (start (.new family order policy) now count).Accounted h count := by
  have hb := blank_start family order policy now count
  refine ⟨sound_start .., routed_start .., ⟨?_, ?_⟩, List.length_replicate, fun d hd => ?_,
    fun _ => rfl⟩
  · rw [hb.ledger]
    simp [start, Stage.held]
  · rw [hb.ledger]
    simp [start, Stage.owed]
  · cases hb.idle d _ hd

theorem Accounted.act {count : Nat} (hs : s.Accounted h count)
    (ha : Dispatchers.act h s a = some s') :
    s'.Accounted h count where
  sound := hs.sound.act ha
  routed := hs.routed.act hs.sound ha
  balanced := balanced_act hs.routed hs.balanced ha
  length := by
    obtain ⟨d, old, new, -, -, -, hst⟩ | ⟨-, hst, -⟩ := stages_act ha
    · rw [hst, List.length_set, hs.length]
    · rw [hst, hs.length]
  ended := ended_act hs.ended ha
  kept := dropped_act hs.kept ha

theorem Accounted.run {count : Nat} (hs : s.Accounted h count) (hr : run h s acts = some s') :
    s'.Accounted h count :=
  Run.invariant (Accounted h count) (fun _ _ _ hs ha => hs.act ha) hs hr

/-! ## One dispatcher among others -/

section Hands

variable {β : Type} {f : Stage → List β} {stages : List Stage}

/-- At most one dispatcher has something of a kind in hand. -/
def Alone (f : Stage → List β) (stages : List Stage) : Prop :=
  ∀ (d e : Nat) (x y : Stage), stages[d]? = some x → stages[e]? = some y → f x ≠ [] → f y ≠ [] →
    d = e

theorem flatMap_of_others (hd : stages[d]? = some old)
    (ho : ∀ (e : Nat) (y : Stage), stages[e]? = some y → e ≠ d → f y = []) :
    stages.flatMap f = f old := by
  induction stages generalizing d with
  | nil => cases hd
  | cons x stages ih =>
      rw [List.flatMap_cons]
      cases d with
      | zero =>
          obtain rfl := Option.some.inj hd
          have hrest : stages.flatMap f = [] := by
            apply List.flatMap_eq_nil_iff.mpr
            intro y hy
            obtain ⟨e, he⟩ := List.mem_iff_getElem?.mp hy
            exact ho (e + 1) y he (Nat.succ_ne_zero e)
          rw [hrest, List.append_nil]
      | succ d =>
          rw [ho 0 x rfl (Nat.succ_ne_zero d).symm, List.nil_append]
          apply ih hd
          intro e y he hne
          exact ho (e + 1) y he (fun h => hne (Nat.succ.inj h))

theorem flatMap_set_of_eq (hd : stages[d]? = some old) (h : f new = f old) :
    (stages.set d new).flatMap f = stages.flatMap f := by
  induction stages generalizing d with
  | nil => cases hd
  | cons x stages ih =>
      cases d with
      | zero =>
          obtain rfl := Option.some.inj hd
          rw [List.set_cons_zero, List.flatMap_cons, List.flatMap_cons, h]
      | succ d => rw [List.set_cons_succ, List.flatMap_cons, List.flatMap_cons, ih hd]

/-- Whoever has something in hand has all of it. -/
theorem Alone.flatMap_eq (halone : Alone f stages) (hd : stages[d]? = some old) (hne : f old ≠ []) :
    stages.flatMap f = f old := by
  apply flatMap_of_others hd
  intro e y he hed
  by_contra hy
  exact hed (halone e d y old he hd hy hne)

/-- Of a dispatcher that goes on either all that is in hand is its own, before and after, or
nothing is. -/
theorem Alone.goes (halone : Alone f stages) (halone' : Alone f (stages.set d new))
    (hd : stages[d]? = some old) :
    (stages.flatMap f = f old ∧ (stages.set d new).flatMap f = f new) ∨
      (f old = [] ∧ f new = [] ∧ (stages.set d new).flatMap f = stages.flatMap f) := by
  have hset : (stages.set d new)[d]? = some new :=
    List.getElem?_set_self (List.getElem?_eq_some_iff.mp hd).choose
  have hother : ∀ (e : Nat) (y : Stage), e ≠ d →
      (stages[e]? = some y ↔ (stages.set d new)[e]? = some y) := by
    intro e y hne
    rw [List.getElem?_set_ne (Ne.symm hne)]
  by_cases ho : f old = []
  · by_cases hn : f new = []
    · exact .inr ⟨ho, hn, flatMap_set_of_eq hd (hn.trans ho.symm)⟩
    · left
      constructor
      · apply flatMap_of_others hd
        intro e y he hne
        by_contra hy
        exact hne (halone' e d y new ((hother e y hne).mp he) hset hy hn)
      · exact halone'.flatMap_eq hset hn
  · left
    constructor
    · exact halone.flatMap_eq hd ho
    · apply flatMap_of_others hset
      intro e y he hne
      by_contra hy
      exact hne (halone e d y old ((hother e y hne).mpr he) hd hy ho)

/-- What is put behind all that is in hand and what is taken from its front is so for one dispatcher
as for all, if nothing is put and taken at once. -/
theorem Alone.moves (halone : Alone f stages) (halone' : Alone f (stages.set d new))
    (hd : stages[d]? = some old) {put taken : List β} (hmove : f old ++ put = taken ++ f new)
    (hone : put = [] ∨ taken = []) :
    stages.flatMap f ++ put = taken ++ (stages.set d new).flatMap f := by
  obtain ⟨ho, hn⟩ | ⟨ho, hn, heq⟩ := halone.goes halone' hd
  · rw [ho, hn]
    exact hmove
  · rw [ho, hn, List.nil_append, List.append_nil] at hmove
    obtain ⟨rfl, rfl⟩ : put = [] ∧ taken = [] := by
      rcases hone with rfl | rfl
      · exact ⟨rfl, hmove.symm⟩
      · exact ⟨hmove, rfl⟩
    rw [heq, List.append_nil, List.nil_append]

end Hands

/-! ## What concerns some peers -/

/-- The calls or replies that concern peers of a kind. -/
def among (keep : PeerKey → Bool) (calls : List (PeerKey × List UInt8)) :
    List (PeerKey × List UInt8) :=
  calls.filter fun call => keep call.1

variable {keep : PeerKey → Bool}

theorem among_append (calls more : List (PeerKey × List UInt8)) :
    among keep (calls ++ more) = among keep calls ++ among keep more := List.filter_append ..

/-- What a dispatcher has taken for such peers and not handed to the handler. -/
def Stage.heldFor (keep : PeerKey → Bool) (stage : Stage) : List (PeerKey × List UInt8) :=
  among keep (stage.held.map Packet.keyed)

/-- What a dispatcher has still to send to such peers. -/
def Stage.owedTo (h : Handler) (keep : PeerKey → Bool) (stage : Stage) :
    List (PeerKey × List UInt8) :=
  among keep (stage.owed h)

/-- The records of such peers stand in one line: handled, in hand, waiting. -/
def Ledger.RecordsInLine (keep : PeerKey → Bool) (l : Ledger) (stages : List Stage) : Prop :=
  among keep (l.accepted.map Packet.keyed) =
    among keep l.handled ++
      (stages.flatMap (Stage.heldFor keep) ++ among keep (l.queued.map Packet.keyed))

/-- The replies to such peers stand in one line: queued, or dropped after that, and owed. -/
def Ledger.RepliesInLine (h : Handler) (keep : PeerKey → Bool) (l : Ledger) (stages : List Stage) :
    Prop :=
  among keep (l.handled.flatMap h.answers) =
    among keep ((l.replied ++ l.dropped).map Packet.keyed) ++ stages.flatMap (Stage.owedTo h keep)

/-! ## One act -/

variable {l : Ledger}

/-- What a dispatcher takes goes behind what it has, and what it hands to the handler was the first
of it. -/
theorem records_goes (hr : s.Routed) (ho : s.manager.inbound.order = .fifo)
    (hd : s.stages[d]? = some old) (hg : Goes h s a old new l) (keep : PeerKey → Bool) :
    l.accepted = s.accepted ∧ ∃ put taken,
      among keep (s.manager.inbound.items.map Packet.keyed) =
          put ++ among keep (l.queued.map Packet.keyed) ∧
      among keep l.handled = among keep s.handled ++ taken ∧
      old.heldFor keep ++ put = taken ++ new.heldFor keep ∧ (put = [] ∨ taken = []) := by
  cases hg with
  | @take _ p hp =>
      refine ⟨rfl, among keep [p.keyed], [], ?_, (List.append_nil _).symm, rfl, .inr rfl⟩
      rw [Queue.items_of_take ho hp, List.map_cons, ← among_append]
      rfl
  | @enter _ p id created x hx _ =>
      refine ⟨rfl, [], among keep [p.keyed], rfl, ?_, ?_, .inl rfl⟩
      · dsimp only
        rw [hr.handled_eq hd hx, among_append]
      · exact (List.append_nil _).trans (List.append_nil _).symm
  | finish _ _ | route | mustArm _ | skip _ | arm _ _ | disarm | leave | reply _ | drop _ | rest =>
      exact ⟨rfl, [], [], rfl, (List.append_nil _).symm, List.append_nil _, .inl rfl⟩

/-- What the handler gives goes behind what its dispatcher owes, and what a dispatcher queues was
the first of it. -/
theorem replies_goes (hr : s.Routed) (hk : s.manager.outbound.closed = false → s.dropped = [])
    (hd : s.stages[d]? = some old) (hg : Goes h s a old new l) (keep : PeerKey → Bool) :
    ∃ put taken,
      among keep (l.handled.flatMap h.answers) = among keep (s.handled.flatMap h.answers) ++ put ∧
      among keep ((l.replied ++ l.dropped).map Packet.keyed) =
        among keep ((s.replied ++ s.dropped).map Packet.keyed) ++ taken ∧
      old.owedTo h keep ++ put = taken ++ new.owedTo h keep ∧ (put = [] ∨ taken = []) := by
  cases hg with
  | @enter _ p id created x hx _ =>
      refine ⟨among keep (h.answers p.keyed), [], ?_, (List.append_nil _).symm, rfl, .inr rfl⟩
      dsimp only
      rw [hr.handled_eq hd hx, List.flatMap_append, List.flatMap_singleton, among_append]
  | leave =>
      refine ⟨[], [], (List.append_nil _).symm, (List.append_nil _).symm, ?_, .inl rfl⟩
      rw [List.append_nil, List.nil_append, Stage.owedTo, Stage.owedTo, Stage.owed, Stage.owed,
        hr.process_eq hd]
  | @reply _ id r rest hopen =>
      refine ⟨[], among keep [r.keyed], (List.append_nil _).symm, ?_, ?_, .inl rfl⟩
      · simp only [ledger, hk hopen, List.append_nil, List.map_append, among_append, List.map_cons,
          List.map_nil]
      · rw [List.append_nil, Stage.owedTo, Stage.owedTo, ← among_append]
        rfl
  | @drop _ id r rest _ =>
      refine ⟨[], among keep [r.keyed], (List.append_nil _).symm, ?_, ?_, .inl rfl⟩
      · simp only [ledger, List.map_append, among_append, List.map_cons, List.map_nil,
          List.append_assoc]
      · rw [List.append_nil, Stage.owedTo, Stage.owedTo, ← among_append]
        rfl
  | take _ | finish _ _ | route | mustArm _ | skip _ | arm _ _ | disarm | rest =>
      exact ⟨[], [], (List.append_nil _).symm, (List.append_nil _).symm, List.append_nil _,
        .inl rfl⟩

theorem records_act (hr : s.Routed) (ho : s.manager.inbound.order = .fifo)
    (halone : Alone (Stage.heldFor keep) s.stages) (halone' : Alone (Stage.heldFor keep) s'.stages)
    (hl : s.ledger.RecordsInLine keep s.stages) (ha : act h s a = some s') :
    s'.ledger.RecordsInLine keep s'.stages := by
  obtain ⟨d, old, new, -, hd, hg, hst⟩ | ⟨-, hst, hl' | ⟨p, -, -, hl'⟩⟩ := stages_act ha
  · obtain ⟨hacc, put, taken, hqueue, hhandled, hmove, hone⟩ := records_goes hr ho hd hg keep
    rw [hst] at halone' ⊢
    calc among keep (s'.ledger.accepted.map Packet.keyed)
        = among keep s.handled ++ (s.stages.flatMap (Stage.heldFor keep) ++
            (put ++ among keep (s'.ledger.queued.map Packet.keyed))) := by
              rw [hacc, ← hqueue]; exact hl
      _ = among keep s.handled ++ (taken ++ (s.stages.set d new).flatMap (Stage.heldFor keep) ++
            among keep (s'.ledger.queued.map Packet.keyed)) := by
          rw [← halone.moves halone' hd hmove hone, List.append_assoc]
      _ = among keep s'.ledger.handled ++ ((s.stages.set d new).flatMap (Stage.heldFor keep) ++
            among keep (s'.ledger.queued.map Packet.keyed)) := by
          rw [hhandled, List.append_assoc, List.append_assoc]
  · rw [hl', hst]
    exact hl
  · rw [hl', hst]
    have hp := congrArg (· ++ among keep [p.keyed]) hl
    simpa only [Ledger.RecordsInLine, ledger, List.map_append, List.map_cons, List.map_nil,
      among_append, List.append_assoc] using hp

theorem replies_act (hr : s.Routed) (hk : s.manager.outbound.closed = false → s.dropped = [])
    (halone : Alone (Stage.owedTo h keep) s.stages)
    (halone' : Alone (Stage.owedTo h keep) s'.stages) (hl : s.ledger.RepliesInLine h keep s.stages)
    (ha : act h s a = some s') :
    s'.ledger.RepliesInLine h keep s'.stages := by
  obtain ⟨d, old, new, -, hd, hg, hst⟩ | ⟨-, hst, hl' | ⟨p, -, -, hl'⟩⟩ := stages_act ha
  · obtain ⟨put, taken, hgiven, hsent, hmove, hone⟩ := replies_goes hr hk hd hg keep
    rw [hst] at halone' ⊢
    calc among keep (s'.ledger.handled.flatMap h.answers)
        = among keep ((s.replied ++ s.dropped).map Packet.keyed) ++
            (s.stages.flatMap (Stage.owedTo h keep) ++ put) := by
          rw [hgiven, ← List.append_assoc]
          exact congrArg (· ++ put) hl
      _ = among keep ((s'.ledger.replied ++ s'.ledger.dropped).map Packet.keyed) ++
            (s.stages.set d new).flatMap (Stage.owedTo h keep) := by
          rw [halone.moves halone' hd hmove hone, hsent, List.append_assoc]
  · rw [hl', hst]
    exact hl
  · rw [hl', hst]
    exact hl

/-! ## Runs -/

def Throughout (h : Handler) (s : Dispatchers) (acts : List Act) (P : Dispatchers → Prop) : Prop :=
  ∀ before after u, acts = before ++ after → run h s before = some u → P u

theorem Throughout.concat {P : Dispatchers → Prop} (ht : Throughout h s (acts ++ [a]) P) :
    Throughout h s acts P := by
  intro before after u he hu
  apply ht before (after ++ [a]) u _ hu
  rw [he, List.append_assoc]

theorem Throughout.last {P : Dispatchers → Prop} (ht : Throughout h s acts P)
    (hr : run h s acts = some s') : P s' :=
  ht acts [] s' (List.append_nil acts).symm hr

theorem order_run (hr : run h s acts = some s') :
    s'.manager.inbound.order = s.manager.inbound.order :=
  Run.invariant (fun t => t.manager.inbound.order = s.manager.inbound.order)
    (fun _ _ _ ht ha => (queueing_act ha).inOrder.trans ht) rfl hr

section Run

variable {s₀ : Dispatchers} {count : Nat} (hs₀ : s₀.Accounted h count) (hr : run h s₀ acts = some s)
include hs₀ hr

/-- The handler gets the records of such peers as they came, as long as no two dispatchers hold one
at once. -/
theorem records_run (ho : s₀.manager.inbound.order = .fifo)
    (hl : s₀.ledger.RecordsInLine keep s₀.stages)
    (halone : Throughout h s₀ acts fun u => Alone (Stage.heldFor keep) u.stages) :
    s.ledger.RecordsInLine keep s.stages := by
  induction acts using List.reverseRecOn generalizing s with
  | nil =>
      obtain rfl := Option.some.inj hr
      exact hl
  | append_singleton acts a ih =>
      have hlast := halone.last hr
      obtain ⟨u, hu, ha⟩ := Run.foldlM_concat_eq_some hr
      have hprev := halone.concat
      exact records_act (hs₀.run hu).routed ((order_run hu).trans ho) (hprev.last hu) hlast
        (ih hu hprev) ha

/-- The replies to such peers are queued as the handler was called, as long as no two dispatchers
owe one at once. -/
theorem replies_run (hl : s₀.ledger.RepliesInLine h keep s₀.stages)
    (halone : Throughout h s₀ acts fun u => Alone (Stage.owedTo h keep) u.stages) :
    s.ledger.RepliesInLine h keep s.stages := by
  induction acts using List.reverseRecOn generalizing s with
  | nil =>
      obtain rfl := Option.some.inj hr
      exact hl
  | append_singleton acts a ih =>
      have hlast := halone.last hr
      obtain ⟨u, hu, ha⟩ := Run.foldlM_concat_eq_some hr
      have hprev := halone.concat
      have hacc := hs₀.run hu
      exact replies_act hacc.routed hacc.kept (hprev.last hu) hlast (ih hu hprev) ha

/-- A single dispatcher is alone all the time. -/
theorem alone_of_single {β : Type} (f : Stage → List β) (hc : count ≤ 1) : Alone f s.stages := by
  intro d e x y hd he _ _
  have hlen := (hs₀.run hr).length
  have hd := (List.getElem?_eq_some_iff.mp hd).choose
  have he := (List.getElem?_eq_some_iff.mp he).choose
  omega

end Run

/-- What a single dispatcher has to do with comes in the order of the records. -/
structure Ledger.Ordered (h : Handler) (l : Ledger) (stage : Stage) : Prop where
  records : l.accepted.map Packet.keyed = l.handled ++ (stage.held ++ l.queued).map Packet.keyed
  replies : l.handled.flatMap h.answers = (l.replied ++ l.dropped).map Packet.keyed ++ stage.owed h

theorem Ledger.ordered_iff {stage : Stage} :
    l.Ordered h stage ↔ l.RecordsInLine (fun _ => true) [stage] ∧
      l.RepliesInLine h (fun _ => true) [stage] := by
  have hall : ∀ calls, among (fun _ => true) calls = calls := fun calls => List.filter_true calls
  simp only [RecordsInLine, RepliesInLine, List.flatMap_singleton, Stage.heldFor, Stage.owedTo,
    hall, ← List.map_append]
  exact ⟨fun ⟨hrecords, hreplies⟩ => ⟨hrecords, hreplies⟩,
    fun ⟨hrecords, hreplies⟩ => ⟨hrecords, hreplies⟩⟩

/-- A single dispatcher keeps records and replies in order, if the inbound queue does. -/
theorem ordered_run {stage₀ : Stage} (hs : s.Accounted h 1) (ho : s.manager.inbound.order = .fifo)
    (hst : s.stages = [stage₀]) (hl : s.ledger.Ordered h stage₀) (hr : run h s acts = some s') :
    ∃ stage, s'.stages = [stage] ∧ s'.ledger.Ordered h stage := by
  obtain ⟨hrecords, hreplies⟩ := Ledger.ordered_iff.mp hl
  rw [← hst] at hrecords hreplies
  obtain ⟨stage, hst'⟩ := List.length_eq_one_iff.mp (hs.run hr).length
  have hrecords' :=
    records_run hs hr ho hrecords fun _ _ _ _ hu => alone_of_single hs hu _ (Nat.le_refl 1)
  have hreplies' :=
    replies_run hs hr hreplies fun _ _ _ _ hu => alone_of_single hs hu _ (Nat.le_refl 1)
  rw [hst'] at hrecords' hreplies'
  exact ⟨stage, hst', Ledger.ordered_iff.mpr ⟨hrecords', hreplies'⟩⟩

end SessionDispatch.Dispatchers
