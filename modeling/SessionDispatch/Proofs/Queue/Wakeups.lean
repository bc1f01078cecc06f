import SessionDispatch.Proofs.Queue.Taking
import SessionDispatch.Queue.Blocking

/-!
# No wake-up is lost

A wake-up is sent after the lock has been given back and reaches one sleeper, whom another consumer
may forestall. The invariant counts: while somebody sleeps, there is a wake-up on the way or a woken
consumer for every item of the queue, and a queue that was closed has a wake-up of everyone still to
send. So when all wake-ups have arrived, whoever sleeps does so at an open and empty queue, and at a
closed queue nobody does.
-/

namespace SessionDispatch.Blocking

variable {α : Type} {b b' : Blocking α} {a : Act α} {c : Nat} {answer : Option (Answer α)}

/-! ## What one act does -/

/-- A consumer that has the lock falls asleep or is answered. -/
inductive Looks (b : Blocking α) (c : Nat) : Blocking α → Option (Answer α) → Prop
  | sleep (hopen : b.queue.closed = false) (hempty : b.queue.items = []) :
      Looks b c { b with sleepers := b.sleepers ++ [c] } none
  | answer (h : b.queue.closed = true ∨ b.queue.items ≠ []) :
      Looks b c { b with queue := b.queue.take.2 } (some ⟨c, b.queue.take.1⟩)

theorem looks (b : Blocking α) (c : Nat) : Looks b c (b.look c).1 (b.look c).2 := by
  unfold look
  split_ifs with h
  · exact .sleep h.2 (List.isEmpty_iff.mp h.1)
  · apply Looks.answer
    cases hc : b.queue.closed with
    | true => exact .inl rfl
    | false => exact .inr fun he => h ⟨List.isEmpty_iff.mpr he, hc⟩

/-- The ways in which an act can happen. -/
inductive Happens (b : Blocking α) : Act α → Blocking α → Option (Answer α) → Prop
  | push {x : α} (hopen : b.queue.closed = false) :
      Happens b (.push x)
        { b with
          queue := { b.queue with items := b.queue.items ++ [x] }
          signals := b.signals + 1 } none
  | refuse {x : α} (hclosed : b.queue.closed = true) : Happens b (.push x) b none
  | pop {c : Nat} {b' : Blocking α} {answer : Option (Answer α)} (hl : Looks b c b' answer) :
      Happens b (.pop c) b' answer
  | tryPop {c : Nat} : Happens b (.tryPop c) { b with queue := b.queue.take.2 }
      (some ⟨c, b.queue.take.1⟩)
  | close : Happens b .close { b with queue := b.queue.close, broadcasts := b.broadcasts + 1 } none
  | idleSignal (hsig : 0 < b.signals) (hnone : b.sleepers = []) :
      Happens b (.signal none) { b with signals := b.signals - 1 } none
  | signal {c : Nat} (hsig : 0 < b.signals) (hc : c ∈ b.sleepers) :
      Happens b (.signal (some c))
        { b with
          signals := b.signals - 1
          sleepers := b.sleepers.erase c
          woken := b.woken ++ [c] } none
  | broadcast (hb : 0 < b.broadcasts) :
      Happens b .broadcast
        { b with
          broadcasts := b.broadcasts - 1
          sleepers := []
          woken := b.woken ++ b.sleepers } none
  | resume {c : Nat} {b' : Blocking α} {answer : Option (Answer α)} (hc : c ∈ b.woken)
      (hl : Looks { b with woken := b.woken.erase c } c b' answer) : Happens b (.resume c) b' answer
  | stir {c : Nat} (hc : c ∈ b.sleepers) :
      Happens b (.stir c) { b with sleepers := b.sleepers.erase c, woken := b.woken ++ [c] } none

theorem happens_of_act (ha : b.act a = some (b', answer)) : Happens b a b' answer := by
  cases a with
  | push x =>
      cases hc : b.queue.closed with
      | true =>
          simp only [act, Queue.push_of_closed hc, Bool.false_eq_true, if_false, Option.some.injEq,
            Prod.mk.injEq] at ha
          obtain ⟨rfl, rfl⟩ := ha
          exact .refuse hc
      | false =>
          simp only [act, Queue.push_of_open hc, if_true, Option.some.injEq, Prod.mk.injEq] at ha
          obtain ⟨rfl, rfl⟩ := ha
          exact .push hc
  | pop c =>
      simp only [act] at ha
      split_ifs at ha
      have hl := looks b c
      rw [Option.some.inj ha] at hl
      exact .pop hl
  | tryPop c =>
      obtain ⟨rfl, rfl⟩ := Prod.mk.inj (Option.some.inj ha)
      exact .tryPop
  | close =>
      obtain ⟨rfl, rfl⟩ := Prod.mk.inj (Option.some.inj ha)
      exact .close
  | signal sleeper =>
      cases sleeper with
      | none =>
          simp only [act] at ha
          split_ifs at ha with h
          obtain ⟨rfl, rfl⟩ := Prod.mk.inj (Option.some.inj ha)
          exact .idleSignal h.1 h.2
      | some c =>
          simp only [act] at ha
          split_ifs at ha with h
          obtain ⟨rfl, rfl⟩ := Prod.mk.inj (Option.some.inj ha)
          exact .signal h.1 h.2
  | broadcast =>
      simp only [act] at ha
      split_ifs at ha with h
      obtain ⟨rfl, rfl⟩ := Prod.mk.inj (Option.some.inj ha)
      exact .broadcast h
  | resume c =>
      simp only [act] at ha
      split_ifs at ha with h
      have hl := looks { b with woken := b.woken.erase c } c
      rw [Option.some.inj ha] at hl
      exact .resume h hl
  | stir c =>
      simp only [act] at ha
      split_ifs at ha with h
      obtain ⟨rfl, rfl⟩ := Prod.mk.inj (Option.some.inj ha)
      exact .stir h

/-! ## The count -/

/-- Nobody sleeps without need. -/
structure Watched (b : Blocking α) : Prop where
  covered : b.sleepers ≠ [] → b.queue.items.length ≤ b.signals + b.woken.length
  released : b.queue.closed = true → b.sleepers ≠ [] → 0 < b.broadcasts
  closed : 0 < b.broadcasts → b.queue.closed = true

theorem watched_new (order : Discipline) : (new order : Blocking α).Watched where
  covered := fun h => absurd rfl h
  released := fun h => absurd h Bool.false_ne_true
  closed := fun h => absurd h (Nat.lt_irrefl 0)

namespace Watched

/-- A consumer that falls asleep finds nothing to take, and one that takes an item leaves one
item less. -/
theorem looks (hcov : b.sleepers ≠ [] → b.queue.items.length ≤ b.signals + b.woken.length + 1)
    (hrel : b.queue.closed = true → b.sleepers ≠ [] → 0 < b.broadcasts)
    (hclosed : 0 < b.broadcasts → b.queue.closed = true) (hl : Looks b c b' answer) :
    b'.Watched := by
  cases hl with
  | sleep hopen hempty =>
      constructor
      · intro _
        simp [hempty]
      · intro hc
        exact absurd hc (Bool.eq_false_iff.mp hopen)
      · exact hclosed
  | answer _ =>
      have hlen := b.queue.length_take
      constructor
      · intro hs
        have hle := hcov hs
        dsimp only
        omega
      · intro hc
        rw [Queue.take_closed] at hc
        exact hrel hc
      · intro hb
        rw [Queue.take_closed]
        exact hclosed hb

/-- A sleeper that is woken is one sleeper less and one consumer more on its way. -/
theorem wake {signals : Nat} (hb : b.Watched) (hs : b.signals ≤ signals + 1) :
    ({ b with
      signals
      sleepers := b.sleepers.erase c
      woken := b.woken ++ [c] } : Blocking α).Watched := by
  have hne : b.sleepers.erase c ≠ [] → b.sleepers ≠ [] := fun h he => h (by rw [he]; rfl)
  constructor
  · intro h
    have hcov := hb.covered (hne h)
    simp only [List.length_append, List.length_singleton]
    omega
  · intro hc h
    exact hb.released hc (hne h)
  · exact hb.closed

theorem act (hb : b.Watched) (ha : b.act a = some (b', answer)) : b'.Watched := by
  cases happens_of_act ha with
  | push hopen =>
      constructor
      · intro hs
        have hcov := hb.covered hs
        simp only [List.length_append, List.length_singleton]
        omega
      · exact hb.released
      · exact hb.closed
  | refuse _ => exact hb
  | pop hl =>
      refine looks (fun hs => ?_) hb.released hb.closed hl
      have hcov := hb.covered hs
      omega
  | tryPop =>
      constructor
      · intro hs
        have hcov := hb.covered hs
        have hlen := b.queue.length_take
        dsimp only
        omega
      · rw [Queue.take_closed]
        exact hb.released
      · rw [Queue.take_closed]
        exact hb.closed
  | close =>
      constructor
      · exact hb.covered
      · intro _ _
        exact Nat.succ_pos _
      · intro _
        rfl
  | idleSignal _ hnone =>
      constructor
      · intro hs
        exact absurd hnone hs
      · intro _ hs
        exact absurd hnone hs
      · exact hb.closed
  | signal _ _ => exact hb.wake (by omega)
  | broadcast _ =>
      constructor
      · intro hs
        exact absurd rfl hs
      · intro _ hs
        exact absurd rfl hs
      · intro h
        apply hb.closed
        dsimp only at h
        omega
  | @resume c _ _ hc hl =>
      have hlen := List.length_erase_of_mem hc
      refine looks (b := { b with woken := b.woken.erase c })
        (fun hs => ?_) hb.released hb.closed hl
      have hcov := hb.covered hs
      dsimp only
      omega
  | stir _ => exact hb.wake (by omega)

end Watched

/-! ## Runs -/

theorem run_cons {acts : List (Act α)} {answers : List (Answer α)}
    (hr : b.run (a :: acts) = some (b', answers)) :
    ∃ u answer rest, b.act a = some (u, answer) ∧ u.run acts = some (b', rest) ∧
      answers = answer.toList ++ rest := by
  simp only [run, bind, Option.bind_eq_some_iff] at hr
  obtain ⟨⟨u, answer⟩, ha, ⟨t, rest⟩, ht, he⟩ := hr
  obtain ⟨rfl, rfl⟩ := Prod.mk.inj (Option.some.inj he)
  exact ⟨u, answer, rest, ha, ht, rfl⟩

/-- What every act keeps holds after every run. -/
theorem run_invariant (P : Blocking α → Prop)
    (hact : ∀ b a b' answer, P b → act b a = some (b', answer) → P b') {acts : List (Act α)}
    {answers : List (Answer α)} (hb : P b) (hr : b.run acts = some (b', answers)) : P b' := by
  induction acts generalizing b answers with
  | nil =>
      obtain ⟨rfl, -⟩ := Prod.mk.inj (Option.some.inj hr)
      exact hb
  | cons a acts ih =>
      obtain ⟨u, answer, rest, ha, hu, -⟩ := run_cons hr
      exact ih (hact b a u answer hb ha) hu

/-! ## Rest -/

/-- An act that comes by itself: a wake-up that was sent, or the look of a consumer that
was woken. -/
def Act.isOwn : Act α → Bool
  | .signal _ | .broadcast | .resume _ => true
  | _ => false

def Act.isClose : Act α → Bool
  | .close => true
  | _ => false

/-- All wake-ups have arrived, and every woken consumer has looked at the queue. -/
structure Rests (b : Blocking α) : Prop where
  signals : b.signals = 0
  broadcasts : b.broadcasts = 0
  woken : b.woken = []

/-- A queue rests when nothing comes by itself any more. -/
theorem rests_iff : b.Rests ↔ ∀ a : Act α, a.isOwn = true → b.act a = none := by
  constructor
  · rintro ⟨hs, hb, hw⟩ a ha
    cases a with
    | signal sleeper => cases sleeper <;> simp [act, hs]
    | broadcast => simp [act, hb]
    | resume c => simp [act, hw]
    | push _ | pop _ | tryPop _ | close | stir _ => cases ha
  · intro hall
    have hsig : b.signals = 0 := by
      cases hs : b.sleepers with
      | nil =>
          have h := hall (.signal none) rfl
          simpa [act, hs] using h
      | cons c sleepers =>
          have h := hall (.signal (some c)) rfl
          simpa [act, hs] using h
    have hbr := hall .broadcast rfl
    constructor
    · exact hsig
    · simpa [act] using hbr
    · cases hw : b.woken with
      | nil => rfl
      | cons c woken =>
          have h := hall (.resume c) rfl
          simp [act, hw] at h

/-- How many acts are to come by themselves at most. A closed queue has its sleepers still
to wake. -/
def effort (b : Blocking α) : Nat :=
  2 * b.signals + b.broadcasts + b.woken.length + if b.queue.closed then b.sleepers.length else 0

theorem effort_look (hl : Looks b c b' answer) : b'.effort = b.effort := by
  cases hl with
  | sleep hopen _ => simp [effort, hopen]
  | answer _ => simp [effort, Queue.take_closed]

/-- What comes by itself comes to an end. -/
theorem effort_act_lt (hb : b.Watched) (ho : a.isOwn = true) (ha : b.act a = some (b', answer)) :
    b'.effort < b.effort := by
  cases happens_of_act ha with
  | idleSignal hs _ =>
      simp only [effort]
      omega
  | signal hs hc =>
      have hlen := List.length_erase_of_mem hc
      have hpos := List.length_pos_of_mem hc
      simp only [effort, List.length_append, List.length_singleton]
      split_ifs <;> omega
  | broadcast hbr =>
      simp only [effort, hb.closed hbr, if_true, List.length_append, List.length_nil]
      omega
  | resume hc hl =>
      have hlen := List.length_erase_of_mem hc
      have hpos := List.length_pos_of_mem hc
      rw [effort_look hl]
      simp only [effort]
      omega
  | push _ | refuse _ | pop _ | tryPop | close | stir _ => cases ho

/-- At a closed queue nothing but a further closing brings more to do. -/
theorem effort_act_of_closed (hb : b.Watched) (hc : b.queue.closed = true)
    (ha : b.act a = some (b', answer)) :
    (if a.isOwn then 1 else 0) + b'.effort ≤ b.effort + if a.isClose then 1 else 0 := by
  cases ho : a.isOwn with
  | true =>
      have hlt := effort_act_lt hb ho ha
      simp only [if_true]
      omega
  | false =>
      cases happens_of_act ha with
      | push hopen => exact absurd hc (Bool.eq_false_iff.mp hopen)
      | refuse _ => simp
      | pop hl => simp [effort_look hl]
      | tryPop => simp [effort, Queue.take_closed]
      | close =>
          simp only [effort, hc, Queue.closed_close, Act.isClose, Bool.false_eq_true, if_true,
            if_false]
          omega
      | stir hs =>
          have hlen := List.length_erase_of_mem hs
          have hpos := List.length_pos_of_mem hs
          simp only [effort, hc, Act.isClose, Bool.false_eq_true, if_true, if_false,
            List.length_append, List.length_singleton]
          omega
      | idleSignal _ _ | signal _ _ | broadcast _ | resume _ _ => cases ho

theorem closed_act (hc : b.queue.closed = true) (ha : b.act a = some (b', answer)) :
    b'.queue.closed = true := by
  have htake := b.queue.take_closed.trans hc
  have hlook : ∀ {u v : Blocking α} {c answer}, Looks u c v answer → u.queue = b.queue →
      v.queue.closed = true := by
    intro u v c answer hl hu
    cases hl with
    | sleep _ _ => exact hu ▸ hc
    | answer _ => exact hu ▸ htake
  cases happens_of_act ha with
  | pop hl => exact hlook hl rfl
  | resume _ hl => exact hlook hl rfl
  | tryPop => exact htake
  | close => rfl
  | push _ | refuse _ | idleSignal _ _ | signal _ _ | broadcast _ | stir _ => exact hc

/-! ## Those who wait -/

/-- A consumer waits from when it falls asleep until it is answered. -/
def waiting (b : Blocking α) : List Nat := b.sleepers ++ b.woken

theorem mem_waiting_wake {signals : Nat} (h : c ∈ b.waiting) (d : Nat) :
    c ∈ waiting { b with signals, sleepers := b.sleepers.erase d, woken := b.woken ++ [d] } := by
  simp only [waiting, List.mem_append, List.mem_singleton] at h ⊢
  by_cases hcd : c = d
  · exact .inr (.inr hcd)
  · rw [List.mem_erase_of_ne hcd]
    tauto

/-- Nobody stops waiting without an answer of its own. -/
theorem answered_of_act (ha : b.act a = some (b', answer)) (h : c ∈ b.waiting)
    (h' : c ∉ b'.waiting) :
    a = .resume c ∧ ∃ item, answer = some ⟨c, item⟩ := by
  cases happens_of_act ha with
  | push _ | refuse _ | tryPop | close | idleSignal _ _ => exact absurd h h'
  | signal _ _ => exact absurd (mem_waiting_wake h _) h'
  | stir _ => exact absurd (mem_waiting_wake h _) h'
  | broadcast _ =>
      simp only [waiting, List.mem_append, List.nil_append] at h h'
      tauto
  | pop hl =>
      cases hl with
      | sleep _ _ =>
          simp only [waiting, List.mem_append] at h h'
          tauto
      | answer _ => exact absurd h h'
  | @resume d _ _ hd hl =>
      by_cases hcd : c = d
      · subst hcd
        cases hl with
        | sleep _ _ => simp [waiting] at h'
        | answer _ => exact ⟨rfl, _, rfl⟩
      · have hmem : c ∈ b.sleepers ∨ c ∈ b.woken.erase d := by
          rw [List.mem_erase_of_ne hcd]
          exact List.mem_append.mp h
        cases hl with
        | sleep _ _ =>
            simp only [waiting, List.mem_append] at h'
            tauto
        | answer _ => exact absurd (List.mem_append.mpr hmem) h'

/-- A consumer that would wait gets nothing from a queue only if it is closed and empty. -/
theorem closed_of_answer_none (hw : a = .pop c ∨ a = .resume c)
    (ha : b.act a = some (b', some ⟨c, none⟩)) :
    b.queue.closed = true ∧ b.queue.items = [] := by
  obtain ⟨u, hu, hl⟩ : ∃ u : Blocking α, u.queue = b.queue ∧ Looks u c b' (some ⟨c, none⟩) := by
    generalize (some ⟨c, none⟩ : Option (Answer α)) = answer at ha ⊢
    rcases hw with rfl | rfl
    · cases happens_of_act ha with
      | pop hl => exact ⟨b, rfl, hl⟩
    · cases happens_of_act ha with
      | resume _ hl => exact ⟨{ b with woken := b.woken.erase c }, rfl, hl⟩
  rw [← hu]
  generalize he : (some ⟨c, none⟩ : Option (Answer α)) = answer at hl
  cases hl with
  | sleep _ _ => cases he
  | answer h =>
      have hnone : u.queue.take.1 = none := (congrArg Answer.item (Option.some.inj he)).symm
      have hempty := u.queue.take_eq_none_iff.mp hnone
      exact ⟨h.resolve_right (fun h => h hempty), hempty⟩

/-! ## What holds in every run -/

theorem Watched.run {acts : List (Act α)} {answers : List (Answer α)} (hb : b.Watched)
    (hr : b.run acts = some (b', answers)) : b'.Watched :=
  run_invariant Watched (fun _ _ _ _ h ha => h.act ha) hb hr

theorem length_le_effort {acts : List (Act α)} {answers : List (Answer α)} (hb : b.Watched)
    (ho : ∀ a ∈ acts, a.isOwn = true) (hr : b.run acts = some (b', answers)) :
    acts.length ≤ b.effort := by
  induction acts generalizing b answers with
  | nil => exact Nat.zero_le _
  | cons a acts ih =>
      obtain ⟨u, answer, rest, ha, hu, -⟩ := run_cons hr
      have hlt := effort_act_lt hb (ho a List.mem_cons_self) ha
      have hle := ih (hb.act ha) (fun x hx => ho x (List.mem_cons_of_mem a hx)) hu
      rw [List.length_cons]
      omega

theorem countP_own_le {acts : List (Act α)} {answers : List (Answer α)} (hb : b.Watched)
    (hc : b.queue.closed = true) (hr : b.run acts = some (b', answers)) :
    acts.countP Act.isOwn ≤ b.effort + acts.countP Act.isClose := by
  induction acts generalizing b answers with
  | nil => exact Nat.zero_le _
  | cons a acts ih =>
      obtain ⟨u, answer, rest, ha, hu, -⟩ := run_cons hr
      have hact := effort_act_of_closed hb hc ha
      have hle := ih (hb.act ha) (closed_act hc ha) hu
      rw [List.countP_cons, List.countP_cons]
      omega

/-- Whatever producers, consumers and closers do, and however often sleepers wake without cause:
when all wake-ups have arrived, whoever sleeps does so at an open and empty queue. A consumer that
was to wait gets nothing only at the end of a closed queue, and all who wait when a queue is closed
are answered after a bounded number of wake-ups and looks. -/
theorem no_wakeup_lost (order : Discipline) (acts : List (Act α)) (answers : List (Answer α))
    (hr : (new order).run acts = some (b, answers)) :
    (b.Rests ↔ ∀ a : Act α, a.isOwn = true → b.act a = none) ∧
    (b.Rests → b.sleepers ≠ [] → b.queue.closed = false ∧ b.queue.items = []) ∧
    (∀ more b' rest, (∀ a ∈ more, Act.isOwn a = true) → b.run more = some (b', rest) →
      more.length ≤ b.effort) ∧
    (∀ a b' c, (a = .pop c ∨ a = .resume c) → b.act a = some (b', some ⟨c, none⟩) →
      b.queue.closed = true ∧ b.queue.items = []) ∧
    (∀ a b' answer c, b.act a = some (b', answer) → c ∈ b.waiting → c ∉ b'.waiting →
      a = .resume c ∧ ∃ item, answer = some ⟨c, item⟩) ∧
    (b.queue.closed = true → ∀ more b' rest, b.run more = some (b', rest) →
      b'.queue.closed = true ∧ (b'.broadcasts = 0 → b'.sleepers = []) ∧
        (b'.Rests → b'.waiting = []) ∧
        more.countP Act.isOwn ≤ b.effort + more.countP Act.isClose) := by
  have hb := (watched_new order).run hr
  refine ⟨rests_iff, ?_, fun more b' rest ho hm => length_le_effort hb ho hm,
    fun a b' c hw ha => closed_of_answer_none hw ha,
      fun a b' answer c ha h h' => answered_of_act ha h h', ?_⟩
  · intro hrest hs
    have hcov := hb.covered hs
    rw [hrest.signals, hrest.woken] at hcov
    constructor
    · apply Bool.eq_false_iff.mpr
      intro hc
      have hpos := hb.released hc hs
      rw [hrest.broadcasts] at hpos
      omega
    · exact List.eq_nil_of_length_eq_zero (Nat.le_zero.mp hcov)
  · intro hc more b' rest hm
    have hb' := hb.run hm
    have hc' : b'.queue.closed = true :=
      run_invariant (fun b => b.queue.closed = true) (fun _ _ _ _ h ha => closed_act h ha) hc hm
    have hsent : b'.broadcasts = 0 → b'.sleepers = [] := by
      intro h0
      by_contra hs
      have hpos := hb'.released hc' hs
      omega
    refine ⟨hc', hsent, ?_, countP_own_le hb hc hm⟩
    intro hrest
    rw [waiting, hsent hrest.broadcasts, hrest.woken, List.append_nil]

/-- Of two consumers that sleep the first is woken by the first item, which another consumer takes
before it, and the second by none. -/
def forestalled : List (Act Nat) :=
  [.pop 1, .pop 2, .push 7, .pop 3, .signal (some 1), .resume 1]

theorem no_wakeup_lost_forestalled :
    ∃ b answers, (new .fifo).run forestalled = some (b, answers) ∧ b.Rests ∧ b.sleepers = [2, 1] ∧
      b.queue.closed = false ∧ b.queue.items = [] := by
  refine ⟨_, _, rfl, ⟨rfl, rfl, rfl⟩, rfl, ?_⟩
  exact (no_wakeup_lost .fifo forestalled _ rfl).2.1 ⟨rfl, rfl, rfl⟩ (List.cons_ne_nil _ _)

end SessionDispatch.Blocking
