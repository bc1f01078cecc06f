import Mathlib.Data.List.Perm.Subperm
import SessionDispatch.Proofs.Queue.Wakeups

/-!
# What a queue is given and gives

A queue accepts what is pushed until it is closed, and gives it to consumers, some of whom were
waiting for it. Whoever comes or is woken, the accepted items are those delivered and those that are
left, which stand in the order in which they were accepted. The discipline decides which of them is
next, and goes on to decide it after the closing, until nothing is left.
-/

namespace SessionDispatch.Blocking

variable {α : Type} {b b' : Blocking α} {a : Act α} {answer : Option (Answer α)}

def Act.item? : Act α → Option α
  | .push x => some x
  | _ => none

/-- The items that the acts of a run bring into a queue: those pushed before it is closed. -/
def accepted (acts : List (Act α)) : List α := (acts.takeWhile (!·.isClose)).filterMap (·.item?)

def delivered (answers : List (Answer α)) : List α := answers.filterMap (·.item)

/-! ## What one act does to the queue -/

/-- The ways in which an act can meet a queue. -/
inductive Meets (q : Queue α) : Act α → Queue α → Option (Answer α) → Prop
  | accept {x : α} (hopen : q.closed = false) : Meets q
      (.push x) { q with items := q.items ++ [x] } none
  | refuse {x : α} (hclosed : q.closed = true) : Meets q (.push x) q none
  | close : Meets q .close q.close none
  | give {a : Act α} {c : Nat} (hitem : a.item? = none) (hclose : a.isClose = false) :
      Meets q a q.take.2 (some ⟨c, q.take.1⟩)
  | pass {a : Act α} (hitem : a.item? = none) (hclose : a.isClose = false) : Meets q a q none

theorem meets_of_act (ha : b.act a = some (b', answer)) : Meets b.queue a b'.queue answer := by
  have hlook : ∀ {u v : Blocking α} {c : Nat} {answer}, Looks u c v answer → a.item? = none →
      a.isClose = false →
      Meets u.queue a v.queue answer := by
    intro u v c answer hl hitem hclose
    cases hl with
    | sleep _ _ => exact .pass hitem hclose
    | answer _ => exact .give hitem hclose
  cases happens_of_act ha with
  | push hopen => exact .accept hopen
  | refuse hclosed => exact .refuse hclosed
  | close => exact .close
  | tryPop => exact .give rfl rfl
  | pop hl => exact hlook hl rfl rfl
  | @resume c _ _ _ hl => exact hlook (u := { b with woken := b.woken.erase c }) hl rfl rfl
  | idleSignal _ _ | signal _ _ | broadcast _ | stir _ => exact .pass rfl rfl

section Meets

variable {q q' : Queue α}

theorem closed_meets (hm : Meets q a q' answer) : q'.closed = (q.closed || a.isClose) := by
  cases hm with
  | accept hopen => simp [Act.isClose]
  | refuse hclosed => simp [hclosed]
  | close => simp [Act.isClose]
  | give _ hclose => simp [Queue.take_closed, hclose]
  | pass _ hclose => simp [hclose]

/-- An act adds what it pushes to an open queue, and what it makes the queue give. -/
theorem flows_meets (hm : Meets q a q' answer) :
    Queue.Flows q (if q.closed then [] else a.item?.toList) (answer.bind (·.item)).toList q' := by
  cases hm with
  | @accept x hopen =>
      have hpush := Queue.Flows.push q x
      rwa [Queue.push_of_open hopen] at hpush
  | refuse hclosed =>
      rw [hclosed]
      exact .of_same rfl rfl
  | close =>
      have hitem : (Act.close : Act α).item? = none := rfl
      rw [hitem, Option.toList_none, ite_self]
      exact .of_same rfl rfl
  | give hitem _ =>
      rw [hitem, Option.toList_none, ite_self]
      exact .take q
  | pass hitem _ =>
      rw [hitem, Option.toList_none, ite_self]
      exact .of_same rfl rfl

theorem take_of_meets {c : Nat} {item : Option α} (hm : Meets q a q' (some ⟨c, item⟩)) :
    q.take.1 = item := by
  generalize hgiven : (some ⟨c, item⟩ : Option (Answer α)) = given at hm
  cases hm with
  | give _ _ => exact (congrArg Answer.item (Option.some.inj hgiven)).symm
  | accept _ | refuse _ | close | pass _ _ => cases hgiven

/-- A closed queue is left as it is, or gives the first of its pending items. -/
theorem pending_meets (hc : q.closed = true) (hm : Meets q a q' answer) :
    answer = none ∧ q'.pending = q.pending ∨ ∃ c, answer = some ⟨c, q.pending.head?⟩ ∧
      q'.pending = q.pending.tail := by
  cases hm with
  | accept hopen => exact absurd hc (Bool.eq_false_iff.mp hopen)
  | refuse _ | close | pass _ _ => exact .inl ⟨rfl, rfl⟩
  | @give _ c _ _ =>
      obtain ⟨hitem, hrest⟩ := q.pending_take
      exact .inr ⟨c, by rw [hitem], hrest⟩

end Meets

/-! ## The account of a run -/

/-- What was accepted and delivered, and what is left. -/
structure Accounted (q : Queue α) (accepted delivered : List α) : Prop where
  perm : accepted.Perm (delivered ++ q.items)
  sublist : q.items.Sublist accepted
  fifo : q.order = .fifo → accepted = delivered ++ q.items

namespace Accounted

variable {q q' : Queue α} {taken given : List α}

theorem flows {got gone : List α} (h : Accounted q taken given) (hf : Queue.Flows q got gone q') :
    Accounted q' (taken ++ got) (given ++ gone) where
  perm := by
    have hgot := h.perm.append_right got
    rw [List.append_assoc] at hgot
    have hgone := hf.perm.append_left given
    rw [← List.append_assoc given gone] at hgone
    exact hgot.trans hgone
  sublist := hf.sublist.trans (h.sublist.append_right got)
  fifo := fun ho => by
    rw [hf.order] at ho
    rw [h.fifo ho, List.append_assoc, hf.inTurn ho, List.append_assoc]

end Accounted

/-! ## Runs -/

section Runs

variable {acts : List (Act α)} {answers : List (Answer α)}

theorem accepted_cons (a : Act α) (acts : List (Act α)) :
    accepted (a :: acts) = a.item?.toList ++ if a.isClose then [] else accepted acts := by
  unfold accepted
  cases a with
  | close => rfl
  | push x => rfl
  | pop _ | tryPop _ | signal _ | broadcast | resume _ | stir _ => rfl

theorem closed_run (hr : b.run acts = some (b', answers)) :
    b'.queue.closed = true ↔ b.queue.closed = true ∨ .close ∈ acts := by
  induction acts generalizing b answers with
  | nil =>
      obtain ⟨rfl, -⟩ := Prod.mk.inj (Option.some.inj hr)
      simp
  | cons a acts ih =>
      obtain ⟨u, answer, rest, ha, hu, -⟩ := run_cons hr
      have hclose : a.isClose = true ↔ a = .close := by cases a <;> simp [Act.isClose]
      rw [ih hu, closed_meets (meets_of_act ha), Bool.or_eq_true, hclose, List.mem_cons, or_assoc,
        eq_comm (a := a)]

theorem Accounted.run {taken given : List α} (h : Accounted b.queue taken given)
    (hr : b.run acts = some (b', answers)) :
    Accounted b'.queue (taken ++ if b.queue.closed then [] else accepted acts)
      (given ++ delivered answers) := by
  induction acts generalizing b taken given answers with
  | nil =>
      obtain ⟨rfl, rfl⟩ := Prod.mk.inj (Option.some.inj hr)
      simpa [accepted, delivered] using h
  | cons a acts ih =>
      obtain ⟨u, answer, rest, ha, hu, rfl⟩ := run_cons hr
      have hm := meets_of_act ha
      have hrest := ih (h.flows (flows_meets hm)) hu
      have htaken : ((if b.queue.closed then [] else a.item?.toList) ++ if u.queue.closed then []
            else accepted acts) =
          if b.queue.closed then [] else accepted (a :: acts) := by
        rw [closed_meets hm, accepted_cons]
        cases b.queue.closed with
        | true => rfl
        | false => simp
      have hgiven :
          (answer.bind (·.item)).toList ++ delivered rest = delivered (answer.toList ++ rest) := by
        cases answer with
        | none => rfl
        | some x => cases hx : x.item <;> simp [delivered, hx]
      rwa [List.append_assoc, List.append_assoc, htaken, hgiven] at hrest

/-- Nothing is accepted after a closing. -/
theorem accepted_append_of_close (h : .close ∈ acts) (more : List (Act α)) :
    accepted (acts ++ more) = accepted acts := by
  induction acts with
  | nil => cases h
  | cons a acts ih =>
      rw [List.cons_append, accepted_cons, accepted_cons]
      cases hclose : a.isClose with
      | true => rfl
      | false =>
          have hne : .close ≠ a := fun he => by simp [← he, Act.isClose] at hclose
          rw [ih ((List.mem_cons.mp h).resolve_left hne)]

/-! ## Newest first -/

/-- Of the accepted items that have not been delivered, `x` is the newest: all that were accepted
after it are among those delivered, and the others of those were accepted before it. -/
def Newest (x : α) (accepted delivered : List α) : Prop :=
  ∃ older newer gone, accepted = older ++ x :: newer ∧ gone.Subperm older ∧
    delivered.Perm (gone ++ newer)

theorem Accounted.newest {q : Queue α} {taken given : List α} {x : α} (h : Accounted q taken given)
    (ho : q.order = .lifo) (hx : q.take.1 = some x) : Newest x taken given := by
  have hlast : q.items.getLast? = some x := by simpa [Queue.take, ho] using hx
  obtain ⟨left, hleft⟩ := List.getLast?_eq_some_iff.mp hlast
  have hsub := h.sublist
  rw [hleft] at hsub
  obtain ⟨before, after, rfl, hbefore, hafter⟩ := List.append_sublist_iff.mp hsub
  obtain ⟨early, newer, rfl⟩ := List.append_of_mem (List.singleton_sublist.mp hafter)
  obtain ⟨passed, hpassed⟩ := hbefore.exists_perm_append
  have hperm : before.Perm (passed ++ left) := hpassed.trans List.perm_append_comm
  refine ⟨before ++ early, newer, passed ++ early, (List.append_assoc _ _ _).symm, ?_, ?_⟩
  · apply List.Subperm.append _ (List.Subperm.refl early)
    exact (List.sublist_append_left passed left).subperm.trans hperm.symm.subperm
  · apply (List.perm_append_right_iff (left ++ [x])).mp
    have hall := h.perm
    rw [hleft] at hall
    apply hall.symm.trans
    apply (hperm.append_right _).trans
    classical
    rw [List.perm_iff_count]
    intro y
    simp only [List.count_append, List.count_cons, List.count_nil]
    omega

/-! ## After the closing -/

/-- A closed queue gives its items in their order, and then nothing. -/
theorem item_of_closed (hc : b.queue.closed = true) (hr : b.run acts = some (b', answers)) (i : Nat)
    {x : Answer α} (hx : answers[i]? = some x) : x.item = b.queue.pending[i]? := by
  induction acts generalizing b answers i with
  | nil =>
      obtain ⟨-, rfl⟩ := Prod.mk.inj (Option.some.inj hr)
      cases hx
  | cons a acts ih =>
      obtain ⟨u, answer, rest, ha, hu, rfl⟩ := run_cons hr
      have hm := meets_of_act ha
      have hcu : u.queue.closed = true := by rw [closed_meets hm, hc, Bool.true_or]
      obtain ⟨rfl, hsame⟩ | ⟨c, rfl, htail⟩ := pending_meets hc hm
      · rw [← hsame]
        exact ih hcu hu i hx
      · cases i with
        | zero =>
            obtain rfl := Option.some.inj hx
            exact List.head?_eq_getElem?
        | succ i =>
            have hitem := ih hcu hu i hx
            rwa [htail, List.getElem?_tail] at hitem

theorem look_of_closed (hc : b.queue.closed = true) (c : Nat) :
    b.look c = ({ b with queue := b.queue.take.2 }, some ⟨c, b.queue.pending.head?⟩) := by
  simp [look, hc, b.queue.pending_take.1]

/-- A closed queue answers everyone who comes, and everyone who is woken. -/
theorem act_of_closed (hc : b.queue.closed = true) (c : Nat) :
    (c ∉ b.waiting → ∃ b', b.act (.pop c) = some (b', some ⟨c, b.queue.pending.head?⟩)) ∧
    (c ∈ b.woken → ∃ b', b.act (.resume c) = some (b', some ⟨c, b.queue.pending.head?⟩)) := by
  constructor
  · intro hw
    rw [waiting, List.mem_append] at hw
    exact ⟨_, by rw [act, if_neg hw, look_of_closed hc]⟩
  · intro hw
    exact ⟨_, by rw [act, if_pos hw, look_of_closed (b := { b with woken := b.woken.erase c }) hc]⟩

/-- Whoever pushes, closes, waits or looks: what was accepted is what was delivered and what is
left, the oldest item is delivered first, or else the newest, and after the closing the same goes on
until nothing is left, while nothing more is accepted. -/
theorem delivered_once_in_turn (order : Discipline) (acts : List (Act α))
    (answers : List (Answer α)) (hr : (new order).run acts = some (b, answers)) :
    (accepted acts).Perm (delivered answers ++ b.queue.items) ∧
    (order = .fifo → accepted acts = delivered answers ++ b.queue.items) ∧
    (order = .lifo → ∀ a b' c x, b.act a = some (b', some ⟨c, some x⟩) →
      Newest x (accepted acts) (delivered answers)) ∧
    (∀ x, (b.queue.push x).1 = false ↔ .close ∈ acts) ∧
    (.close ∈ acts →
      (∀ x, b.act (.push x) = some (b, none)) ∧
      b.act .close = some ({ b with broadcasts := b.broadcasts + 1 }, none) ∧
      (b.broadcasts = 0 → b.sleepers = []) ∧
      (∀ c, c ∉ b.waiting → ∃ b', b.act (.pop c) = some (b', some ⟨c, b.queue.pending.head?⟩)) ∧
      (∀ c, c ∈ b.woken → ∃ b', b.act (.resume c) = some (b', some ⟨c, b.queue.pending.head?⟩)) ∧
      ∀ more b' rest, b.run more = some (b', rest) →
        accepted (acts ++ more) = accepted acts ∧
        ∀ (i : Nat) (x : Answer α), rest[i]? = some x → x.item = b.queue.pending[i]?) := by
  have hnew : Accounted (new order : Blocking α).queue [] [] := ⟨.refl [], .refl [], fun _ => rfl⟩
  have hacc : Accounted b.queue (accepted acts) (delivered answers) := hnew.run hr
  have horder : b.queue.order = order :=
    run_invariant (fun b => b.queue.order = order)
      (fun _ _ _ _ h ha => (flows_meets (meets_of_act ha)).order.trans h) rfl hr
  have hclosed : b.queue.closed = true ↔ .close ∈ acts := by
    rw [closed_run hr]
    simp [new, Queue.new]
  have hwatched := (watched_new order).run hr
  refine ⟨hacc.perm, fun ho => hacc.fifo (horder.trans ho), ?_, ?_, ?_⟩
  · intro ho a b' c x ha
    apply hacc.newest (horder.trans ho)
    exact take_of_meets (meets_of_act ha)
  · intro x
    rw [← hclosed]
    unfold Queue.push
    cases b.queue.closed <;> simp
  · intro hclose
    have hc := hclosed.mpr hclose
    refine ⟨?_, ?_, ?_, fun c => (act_of_closed hc c).1, fun c => (act_of_closed hc c).2, ?_⟩
    · intro x
      simp [act, Queue.push_of_closed hc]
    · have hsame : b.queue.close = b.queue := by
        unfold Queue.close
        rw [← hc]
      rw [act, hsame]
    · intro h0
      by_contra hs
      have hpos := hwatched.released hc hs
      omega
    · intro more b' rest hmore
      exact ⟨accepted_append_of_close hclose more, fun i x => item_of_closed hc hmore i⟩

/-- Another consumer forestalls the one that was woken, which is served by a later push; an item is
left when the queue is closed. -/
def latecomers : List (Act Nat) :=
  [.pop 1, .push 5, .push 6, .tryPop 2, .signal (some 1), .push 7, .resume 1, .close, .push 9]

theorem delivered_once_in_turn_latecomers :
    ∃ b answers, (new .lifo).run latecomers = some (b, answers) ∧ accepted latecomers = [5, 6, 7] ∧
      delivered answers = [6, 7] ∧ [5, 6, 7].Perm ([6, 7] ++ b.queue.items) ∧
      ∃ b', b.act (.pop 3) = some (b', some ⟨3, some 5⟩) := by
  have h := delivered_once_in_turn .lifo latecomers _ rfl
  refine ⟨_, _, rfl, rfl, rfl, h.1, ?_⟩
  exact (h.2.2.2.2 (by simp [latecomers])).2.2.2.1 3 (by decide)

end Runs

end SessionDispatch.Blocking
