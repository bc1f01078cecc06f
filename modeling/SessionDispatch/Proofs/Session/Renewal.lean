import SessionDispatch.Proofs.Session.Routes

/-!
# How long a renewal lasts

Once a session of the table is armed, it stays there until a pass that comes no sooner than the
timeout after that, unless it is removed by hand. But between a dispatcher's finding a session and
its arming it, the session may expire: then the arming renews a session that the table does not hold
any more.
-/

namespace SessionDispatch.Dispatchers

open SessionManager

variable {h : Handler} {s s' t u v w : Dispatchers} {a : Act} {acts mid more : List Act}
variable {d id : Nat} {k : PeerKey}
  {armed : Instant} {timeout : Span}

/-! ## Sessions that were armed -/

def generation? (s : Dispatchers) (id : Nat) : Option Nat :=
  (s.manager.sessions[id]?).map (·.generation)

/-- A session of the table that was armed at an instant for a timeout, or later for no less. -/
structure Held (s : Dispatchers) (k : PeerKey) (id : Nat) (armed : Instant) (timeout : Span) :
    Prop where
  entry : s.manager.table.find? k = some id
  armed_le : armed ≤ s.now
  timeout_le : timeout ≤ s.manager.policy.timeout
  due : ∀ e ∈ s.timer.events, e.action.session = id → s.generation? id = some e.action.generation →
    armed + timeout ≤ e.due
  flying : ∀ e ∈ s.expiries, e.session = id → s.generation? id ≠ some e.generation

/-- A session that the table holds is armed. -/
theorem held_arm (hs : s.Sound) (ha : act h s (.arm d) = some s') {p : Packet} {created : Bool}
    (hd : s.stages[d]? = some (.arming p id created)) (hk : s.manager.table.find? k = some id) :
    s'.Held k id s.now s.manager.policy.timeout := by
  obtain ⟨q, j, created', hd', -, rfl⟩ := act_arm ha
  obtain ⟨rfl, rfl, rfl⟩ : p = q ∧ id = j ∧ created = created' := by
    rw [hd] at hd'
    cases hd'
    exact ⟨rfl, rfl, rfl⟩
  obtain ⟨x, hx, -⟩ := hs.tracked.entry k id hk
  rw [renew_of_some hx]
  have hgen : ∀ n : Nat, ((s.manager.sessions.modify id fun x' =>
      { x' with generation := x.generation + 1, event := some n })[id]?).map (·.generation) =
        some (x.generation + 1) := fun n => by
    rw [getElem?_modify_renew hx, if_pos rfl]
    rfl
  have hnew : ∀ e ∈ toCome s.timer s.expiries, e.session = id →
      x.generation + 1 ≠ e.generation := by
    intro e he hid hg
    obtain ⟨-, -, y, hy, hle⟩ := hs.tracked.known e he
    rw [hid] at hy
    obtain rfl : x = y := Option.some.inj (hx.symm.trans hy)
    omega
  refine ⟨hk, Nat.le_refl _, Nat.le_refl _, fun e he hid hg => ?_, fun e he hid hg => ?_⟩
  · rcases (Timer.mem_schedule ..).mp he with rfl | he
    · exact Nat.le_refl _
    · have hg' := Option.some.inj ((hgen _).symm.trans hg)
      exact absurd hg' (hnew _ (List.mem_append_left _ (List.mem_map_of_mem he)) hid)
  · have hg' := Option.some.inj ((hgen _).symm.trans hg)
    exact absurd hg' (hnew e (List.mem_append_right _ he) hid)

namespace Held

theorem route (hs : s.Sound) (hk : s.Held k id armed timeout)
    (ha : Dispatchers.act h s (.route d) = some s') :
    s'.Held k id armed timeout := by
  have hentry := entry_act hs hk.entry rfl ha
  obtain ⟨p, -, rfl⟩ := act_route ha
  cases hf : s.manager.table.find? p.key with
  | some j =>
      rw [route_of_some hf]
      exact ⟨hk.entry, hk.armed_le, hk.timeout_le, hk.due, hk.flying⟩
  | none =>
      rw [route_of_none hf] at hentry ⊢
      obtain ⟨x, hx, -⟩ := hs.tracked.entry k id hk.entry
      have hgen :
          ∀ y : Session, ((s.manager.sessions ++ [y])[id]?).map (·.generation) = s.generation? id :=
        fun y => by rw [getElem?_concat_of_some hx, generation?, hx]
      exact ⟨hentry, hk.armed_le, hk.timeout_le,
        fun e he hid hg => hk.due e he hid ((hgen _).symm.trans hg),
        fun e he hid hg => hk.flying e he hid ((hgen _).symm.trans hg)⟩

/-- What was armed later and for no less time is held for the earlier arming too. -/
theorem mono {armed' : Instant} {timeout' : Span} (hk : s.Held k id armed' timeout')
    (ha : armed ≤ armed') (ht : timeout ≤ timeout') : s.Held k id armed timeout where
  entry := hk.entry
  armed_le := Nat.le_trans ha hk.armed_le
  timeout_le := Nat.le_trans ht hk.timeout_le
  due := fun e he hid hg => Nat.le_trans (Nat.add_le_add ha ht) (hk.due e he hid hg)
  flying := hk.flying

theorem arm (hs : s.Sound) (hk : s.Held k id armed timeout)
    (ha : Dispatchers.act h s (.arm d) = some s') :
    s'.Held k id armed timeout := by
  obtain ⟨p, j, created, hd, -, hs'⟩ := act_arm ha
  by_cases hj : id = j
  · subst hj
    exact (held_arm hs ha hd hk.entry).mono hk.armed_le hk.timeout_le
  · subst hs'
    cases hx : s.manager.sessions[j]? with
    | none =>
        rw [renew_of_none hx]
        exact ⟨hk.entry, hk.armed_le, hk.timeout_le, hk.due, hk.flying⟩
    | some x =>
        rw [renew_of_some hx]
        have hgen : ∀ n : Nat, ((s.manager.sessions.modify j fun x' =>
            { x' with generation := x.generation + 1, event := some n })[id]?).map (·.generation) =
              s.generation? id := fun n => by
          rw [getElem?_modify_renew hx, if_neg hj]
          rfl
        refine ⟨hk.entry, hk.armed_le, hk.timeout_le, fun e he hid hg => ?_,
          fun e he hid hg => hk.flying e he hid ((hgen _).symm.trans hg)⟩
        rcases (Timer.mem_schedule ..).mp he with rfl | he
        · exact absurd hid.symm hj
        · exact hk.due e he hid ((hgen _).symm.trans hg)

theorem disarm (hs : s.Sound) (hk : s.Held k id armed timeout)
    (ha : Dispatchers.act h s (.disarm d) = some s') : s'.Held k id armed timeout := by
  obtain ⟨p, j, created, previous, -, rfl⟩ := act_disarm ha
  exact ⟨hk.entry, hk.armed_le, hk.timeout_le,
    fun e he => hk.due e ((mem_withdraw hs.valid).mp he).1, hk.flying⟩

theorem leave (hk : s.Held k id armed timeout) (ha : Dispatchers.act h s (.leave d) = some s') :
    s'.Held k id armed timeout := by
  obtain ⟨p, j, created, -, rfl⟩ := act_leave ha
  rw [process_snd]
  have hgen : ((s.manager.sessions.modify j fun x => { x with packets := x.packets + 1 })[id]?).map
      (·.generation) = s.generation? id := by
    have hmap := map_modify_eq (·.generation) s.manager.sessions j
      (f := fun x => { x with packets := x.packets + 1 }) fun _ => rfl
    rw [← List.getElem?_map, hmap, List.getElem?_map, generation?]
  exact ⟨hk.entry, hk.armed_le, hk.timeout_le,
    fun e he hid hg => hk.due e he hid (hgen.symm.trans hg),
    fun e he hid hg => hk.flying e he hid (hgen.symm.trans hg)⟩

theorem pass (hs : s.Sound) (hk : s.Held k id armed timeout) (hnow : s.now < armed + timeout)
    (ha : Dispatchers.act h s .pass = some s') : s'.Held k id armed timeout := by
  obtain ⟨-, rfl⟩ := act_pass ha
  refine ⟨hk.entry, hk.armed_le, hk.timeout_le, fun e he hid hg => ?_, fun e he hid hg => ?_⟩
  · obtain ⟨e₀, he₀, hdue, rfl⟩ := hs.valid.mem_left.mp he
    rw [hs.tracked.oneShot e₀ he₀] at hdue
    rw [Timer.Event.advance_action] at hid hg
    rw [Timer.Event.due_advance (hs.valid.checkpoint_le e₀ he₀) (hdue.resolve_left nofun)]
    exact hk.due e₀ he₀ hid hg
  · rcases List.mem_append.mp he with he | he
    · exact hk.flying e he hid hg
    · obtain ⟨x, hx, rfl⟩ := List.mem_map.mp he
      obtain ⟨e₀, he₀, hdue, rfl⟩ := hs.valid.mem_due.mp hx
      rw [Timer.Event.advance_action] at hid hg
      exact absurd (Nat.le_trans (hk.due e₀ he₀ hid hg) hdue) (Nat.not_le.mpr hnow)

theorem expire (hs : s.Sound) (hk : s.Held k id armed timeout) {i : Nat}
    (ha : Dispatchers.act h s (.expire i) = some s') : s'.Held k id armed timeout := by
  obtain ⟨e, hi, -, rfl⟩ := act_expire ha
  have hstays : (s.manager.expire e).1.table.find? k = some id := by
    rw [find?_expire hs.tracked.entry, if_neg, hk.entry]
    rintro ⟨hfind, hg⟩
    obtain rfl : id = e.session := Option.some.inj (hk.entry.symm.trans hfind)
    exact hk.flying e (List.mem_of_getElem? hi) rfl hg
  rw [expire_eq]
  exact ⟨hstays, hk.armed_le, hk.timeout_le, hk.due,
    fun e he => hk.flying e (List.mem_of_mem_eraseIdx he)⟩

/-- Neither other dispatchers nor passes before its time end the session. -/
theorem act (hs : s.Sound) (hk : s.Held k id armed timeout) (hremove : a ≠ .remove k)
    (hclear : a ≠ .clear) (hpolicy : ∀ policy, a = .setPolicy policy → timeout ≤ policy.timeout)
    (hpass : a = .pass → s.now < armed + timeout) (ha : Dispatchers.act h s a = some s') :
    s'.Held k id armed timeout := by
  cases a with
  | route d => exact hk.route hs ha
  | arm d => exact hk.arm hs ha
  | disarm d => exact hk.disarm hs ha
  | leave d => exact hk.leave ha
  | pass => exact hk.pass hs (hpass rfl) ha
  | expire i => exact hk.expire hs ha
  | giveUp i =>
      obtain ⟨-, rfl⟩ := act_giveUp ha
      exact ⟨hk.entry, hk.armed_le, hk.timeout_le, hk.due,
        fun e he => hk.flying e (List.mem_of_mem_eraseIdx he)⟩
  | setPolicy policy =>
      obtain rfl := Option.some.inj ha
      exact ⟨hk.entry, hk.armed_le, hpolicy policy rfl, hk.due, hk.flying⟩
  | tick d =>
      obtain rfl := Option.some.inj ha
      exact ⟨hk.entry, Nat.le_add_right_of_le hk.armed_le, hk.timeout_le, hk.due, hk.flying⟩
  | remove j =>
      obtain rfl := Option.some.inj ha
      have hne : k ≠ j := fun hkj => hremove (congrArg Act.remove hkj.symm)
      exact ⟨(Table.find?_erase ..).trans ((if_neg hne).trans hk.entry), hk.armed_le, hk.timeout_le,
        hk.due, hk.flying⟩
  | clear => exact absurd rfl hclear
  | take d =>
      obtain ⟨-, ⟨p, -, rfl⟩ | ⟨-, -, rfl⟩⟩ := act_take ha <;>
        exact ⟨hk.entry, hk.armed_le, hk.timeout_le, hk.due, hk.flying⟩
  | decide d =>
      obtain ⟨p, j, created, -, rfl⟩ := act_decide ha
      exact ⟨hk.entry, hk.armed_le, hk.timeout_le, hk.due, hk.flying⟩
  | enter d =>
      obtain ⟨p, j, created, x, -, -, -, rfl⟩ := act_enter ha
      exact ⟨hk.entry, hk.armed_le, hk.timeout_le, hk.due, hk.flying⟩
  | reply d =>
      obtain ⟨j, ⟨-, rfl⟩ | ⟨p, rest, -, rfl⟩⟩ := act_reply ha <;>
        exact ⟨hk.entry, hk.armed_le, hk.timeout_le, hk.due, hk.flying⟩
  | arrive _ | closeInbound | closeOutbound | send | closePool | stopTimer =>
      obtain rfl := Option.some.inj ha
      exact ⟨hk.entry, hk.armed_le, hk.timeout_le, hk.due, hk.flying⟩

end Held

/-! ## Runs -/

def passing? (s : Dispatchers) : Act → Option Instant
  | .pass => some s.now
  | _ => none

def passes (h : Handler) : Dispatchers → List Act → List Instant := Run.observe (act h) passing?

theorem Held.run (hs : s.Sound) (hk : s.Held k id armed timeout) (hremove : .remove k ∉ acts)
    (hclear : .clear ∉ acts)
    (hpolicy : ∀ policy, .setPolicy policy ∈ acts → timeout ≤ policy.timeout)
    (hpass : ∀ now ∈ passes h s acts, now < armed + timeout) (hr : run h s acts = some s') :
    s'.Held k id armed timeout := by
  induction acts generalizing s with
  | nil =>
      obtain rfl := Option.some.inj hr
      exact hk
  | cons a acts ih =>
      obtain ⟨u, ha, hr⟩ := Run.foldlM_cons_eq_some hr
      have hpasses : passes h s (a :: acts) = (passing? s a).toList ++ passes h u acts := by
        simp [passes, Run.observe, ha]
      rw [hpasses] at hpass
      refine ih (hs.act ha) ?_ (fun hm => hremove (.tail a hm)) (fun hm => hclear (.tail a hm))
        (fun policy hm => hpolicy policy (.tail a hm))
          (fun now hm => hpass now (List.mem_append_right _ hm)) hr
      refine hk.act hs (fun he => hremove (he ▸ .head acts)) (fun he => hclear (he ▸ .head acts))
        (fun policy he => hpolicy policy (he ▸ .head acts)) ?_ ha
      rintro rfl
      exact hpass s.now (List.mem_append_left _ (List.mem_singleton_self _))

/-! ## From the finding of a session to its arming -/

/-- A dispatcher that found a session, and has at most looked whether it must arm it. -/
def Finds (s : Dispatchers) (d : Nat) (p : Packet) (id : Nat) : Prop :=
  ∃ stage ∈ [Stage.routed p id false, .arming p id false, .ready p id false],
    s.stages[d]? = some stage

theorem finds_act {p : Packet} (hf : s.Finds d p id) (hown : a.dispatcher? = some d → a = .decide d)
    (ha : act h s a = some s') : s'.Finds d p id := by
  obtain ⟨stage, hm, hd⟩ := hf
  obtain ⟨e, old, new, he, ho, hg, hst⟩ | ⟨-, hst, -⟩ := stages_act ha
  · rw [Finds, hst]
    by_cases hed : e = d
    · subst hed
      obtain rfl := hown he
      obtain rfl : stage = old := Option.some.inj (hd.symm.trans ho)
      have hl := (List.getElem?_eq_some_iff.mp hd).choose
      refine ⟨new, ?_, List.getElem?_set_self hl⟩
      generalize s'.ledger = l at hg
      cases hg with
      | mustArm _ | skip _ =>
          obtain ⟨rfl, rfl, rfl⟩ : _ = p ∧ _ = id ∧ _ = false := by simpa using hm
          simp
    · exact ⟨stage, hm, (List.getElem?_set_ne hed).trans hd⟩
  · exact ⟨stage, hm, hst ▸ hd⟩

/-- A dispatcher finds a session and arms it. If nothing was removed in between, the table holds the
session when it is armed. And if the table holds it then, it does so until it is removed by hand, or
a pass comes no sooner than the timeout after the arming. -/
theorem renewal_lasts (h : Handler) (family : Family) (order : Discipline) (policy : ExpiryPolicy)
    (now : Instant) (count : Nat) (acts : List Act)
    (hr : run h (start (.new family order policy) now count) acts = some s)
    (hroute : act h s (.route d) = some t) {p : Packet}
    (hd : t.stages[d]? = some (.routed p id false)) (hmid : run h t mid = some u)
    (hown : ∀ a ∈ mid, a.dispatcher? = some d → a = .decide d) (harm : act h u (.arm d) = some v) :
    ((∀ a ∈ mid, a.removes = false) → u.manager.table.find? p.key = some id) ∧
      (u.manager.table.find? p.key = some id →
        ∀ more w, run h v more = some w → .remove p.key ∉ more → .clear ∉ more →
          (∀ policy, .setPolicy policy ∈ more → u.manager.policy.timeout ≤ policy.timeout) →
            (∀ now ∈ passes h v more, now < u.now + u.manager.policy.timeout) →
              w.manager.table.find? p.key = some id) := by
  have hs := (sound_start family order policy now count).run hr
  have hst := hs.act hroute
  have hsu := hst.run hmid
  constructor
  · intro hrem
    have hentry : t.manager.table.find? p.key = some id := by
      obtain ⟨q, hq, rfl⟩ := act_route hroute
      have hl := (List.getElem?_eq_some_iff.mp hq).choose
      have hstage := Option.some.inj ((List.getElem?_set_self hl).symm.trans hd)
      cases hf : s.manager.table.find? q.key with
      | none =>
          rw [route_of_none hf] at hstage
          cases hstage
      | some j =>
          rw [route_of_some hf] at hstage ⊢
          cases hstage
          exact hf
    exact (Run.invariant_of_forall (fun s => s.Sound ∧ s.manager.table.find? p.key = some id)
      (fun _ _ _ hrem hs ha => ⟨hs.1.act ha, entry_act hs.1 hs.2 hrem ha⟩) hrem
        ⟨hst, hentry⟩ hmid).2
  · intro hentry more w hmore hremove hclear hpolicy hpass
    have hf : u.Finds d p id := Run.invariant_of_forall (Finds · d p id)
      (fun _ _ _ hown hf ha => finds_act hf hown ha) hown ⟨_, by simp, hd⟩ hmid
    have harming : u.stages[d]? = some (.arming p id false) := by
      obtain ⟨stage, hm, hd⟩ := hf
      obtain ⟨q, j, created, hq, -⟩ := act_arm harm
      obtain rfl : stage = .arming q j created := Option.some.inj (hd.symm.trans hq)
      obtain ⟨rfl, rfl, rfl⟩ : q = p ∧ j = id ∧ created = false := by simpa using hm
      exact hd
    exact ((held_arm hsu harm harming hentry).run
      (hsu.act harm) hremove hclear hpolicy hpass hmore).entry

/-- Two records of one peer. The second is taken two seconds after the session was armed
for three. -/
def secondRecord : List Act :=
  [.arrive ⟨.v4 .loopback 500, [1]⟩, .arrive ⟨.v4 .loopback 500, [2]⟩, .take 0, .route 0, .decide 0,
    .arm 0, .disarm 0, .enter 0, .leave 0, .reply 0, .tick (.ofSecs 2), .take 0]

/-- The event armed first is handed out just before it is cancelled. -/
def handedOut : List Act := [.tick (.ofSecs 2), .pass, .disarm 0, .expire 0]

theorem renewal_lasts_handedOut :
    ∃ s t u v w, run .silent (start (.new .v4 .fifo ⟨3000, .sliding⟩) 7 1) secondRecord = some s ∧
      act .silent s (.route 0) = some t ∧ run .silent t [.decide 0] = some u ∧
      act .silent u (.arm 0) = some v ∧ run .silent v handedOut = some w ∧
      w.manager.table.find? (.ofAddress (.v4 .loopback 500)) = some 0 := by
  have hchain :
      ((run .silent (start (.new .v4 .fifo ⟨3000, .sliding⟩) 7 1) secondRecord).bind fun s =>
        (act .silent s (.route 0)).bind fun t => (run .silent t [.decide 0]).bind fun u =>
        (act .silent u (.arm 0)).bind fun v => (run .silent v handedOut).map fun _ =>
          (t.stages, u.now + u.manager.policy.timeout, passes .silent v handedOut)) =
      some ([.routed ⟨.v4 .loopback 500, [2]⟩ 0 false], 5000000007, [4000000007]) := by cbv
  obtain ⟨s, hr, hchain⟩ := Option.bind_eq_some_iff.mp hchain
  obtain ⟨t, hroute, hchain⟩ := Option.bind_eq_some_iff.mp hchain
  obtain ⟨u, hmid, hchain⟩ := Option.bind_eq_some_iff.mp hchain
  obtain ⟨v, harm, hchain⟩ := Option.bind_eq_some_iff.mp hchain
  obtain ⟨w, hmore, hchain⟩ := Option.map_eq_some_iff.mp hchain
  simp only [Prod.mk.injEq] at hchain
  obtain ⟨hstages, hnow, hpasses⟩ := hchain
  obtain ⟨hentry, hlasts⟩ :=
    renewal_lasts .silent .v4 .fifo ⟨3000, .sliding⟩ 7 1 secondRecord hr hroute (d := 0)
    (by rw [hstages]; rfl) hmid (by simp) harm
  refine ⟨s, t, u, v, w, hr, hroute, hmid, harm, hmore, ?_⟩
  refine hlasts (hentry (by simp [Act.removes])) handedOut w hmore (by simp [handedOut])
    (by simp [handedOut])
    (by simp [handedOut]) fun now hnow' => ?_
  rw [hpasses, List.mem_singleton] at hnow'
  rw [hnow, hnow']
  decide

/-- The second record finds the session, which expires before it is armed anew. -/
def missed : List Act := secondRecord ++ [.route 0, .tick (.ofSecs 1), .pass, .expire 0, .decide 0]

/-- So with sliding expiry a record may renew a session that the table does not hold. -/
theorem not_renewed_in_table :
    ¬ ∀ (h : Handler) (family : Family) (order : Discipline) (policy : ExpiryPolicy) (now : Instant)
        (count : Nat) (acts : List Act) (s t : Dispatchers) (d : Nat) (p : Packet) (id : Nat),
      run h (start (.new family order policy) now count) acts = some s → policy.mode = .sliding →
        (∀ policy, .setPolicy policy ∉ acts) → (∀ k, .remove k ∉ acts) → .clear ∉ acts →
          s.stages[d]? = some (.arming p id false) → act h s (.arm d) = some t →
            t.manager.table.find? p.key = some id := by
  intro hall
  have hchain : ((run .silent (start (.new .v4 .fifo ⟨3000, .sliding⟩) 7 1) missed).bind fun s =>
      (act .silent s (.arm 0)).map fun t =>
        (s.stages, t.manager.table.find? (.ofAddress (.v4 .loopback 500)))) =
      some ([.arming ⟨.v4 .loopback 500, [2]⟩ 0 false], none) := by cbv
  obtain ⟨s, hr, hchain⟩ := Option.bind_eq_some_iff.mp hchain
  obtain ⟨t, harm, hchain⟩ := Option.map_eq_some_iff.mp hchain
  simp only [Prod.mk.injEq] at hchain
  have hfind :=
    hall .silent .v4 .fifo ⟨3000, .sliding⟩ 7 1 missed s t 0 ⟨.v4 .loopback 500, [2]⟩ 0 hr rfl
    (by simp [missed, secondRecord]) (by simp [missed, secondRecord])
    (by simp [missed, secondRecord])
    (by rw [hchain.1]; rfl) harm
  cases hfind.symm.trans hchain.2

end SessionDispatch.Dispatchers
