import Mathlib.Data.List.Perm.Basic
import SessionDispatch.Queue

/-!
# What queues take and give

An item that is taken leaves the others behind, in order if the oldest goes first, and neither the
discipline of a queue nor whether it is closed changes by it.
-/

namespace SessionDispatch.Queue

variable {α : Type} {q : Queue α} {x : α}

/-! ## Taking -/

/-- A queue that gives the oldest item first keeps the others in order. -/
theorem items_of_take (ho : q.order = .fifo) (hx : q.take.1 = some x) :
    q.items = x :: q.take.2.items := by
  simp only [take, ho] at hx ⊢
  exact (List.cons_head?_tail hx).symm

/-- Taking an item leaves the others. -/
theorem take_perm (hx : q.take.1 = some x) : q.items.Perm (x :: q.take.2.items) := by
  cases ho : q.order with
  | fifo => exact List.Perm.of_eq (items_of_take ho hx)
  | lifo =>
      simp only [take, ho] at hx ⊢
      obtain ⟨items, hi⟩ := List.getLast?_eq_some_iff.mp hx
      rw [hi, List.dropLast_concat]
      exact List.perm_append_singleton x items

theorem take_items_of_empty (h : q.items = []) : q.take.2.items = [] := by
  unfold take
  rw [h]
  split <;> rfl

theorem length_take (q : Queue α) : q.take.2.items.length = q.items.length - 1 := by
  cases hx : q.take.1 with
  | none =>
      have he := q.take_eq_none_iff.mp hx
      rw [take_items_of_empty he, he]
      rfl
  | some x => rw [(take_perm hx).length_eq, List.length_cons, Nat.add_sub_cancel]

theorem take_order (q : Queue α) : q.take.2.order = q.order := by
  unfold take
  split <;> rfl

theorem take_closed (q : Queue α) : q.take.2.closed = q.closed := by
  unfold take
  split <;> rfl

/-- Taking an item, if there is one, leaves the others. -/
theorem take_toList_perm (q : Queue α) : q.items.Perm (q.take.1.toList ++ q.take.2.items) := by
  cases hx : q.take.1 with
  | none => simp [q.take_eq_none_iff.mp hx, take_items_of_empty (q.take_eq_none_iff.mp hx)]
  | some x => exact take_perm hx

theorem take_toList_eq (q : Queue α) (ho : q.order = .fifo) :
    q.items = q.take.1.toList ++ q.take.2.items := by
  simp only [take, ho]
  cases q.items <;> rfl

theorem take_sublist (q : Queue α) : q.take.2.items.Sublist q.items := by
  unfold take
  split
  · exact List.tail_sublist q.items
  · exact List.dropLast_sublist q.items

/-! ## Pushing -/

theorem push_closed (q : Queue α) (x : α) : (q.push x).2.closed = q.closed := by
  cases hc : q.closed with
  | true => rw [push_of_closed hc, hc]
  | false =>
      rw [push_of_open hc]
      exact hc

/-- The last of some items to be queued stands last, unless the queue takes none. -/
theorem foldl_push (q : Queue α) (more : List α) :
    more.foldl (fun q a => (q.push a).2) q =
      if q.closed then q else { q with items := q.items ++ more } := by
  induction more generalizing q with
  | nil => simp
  | cons a more ih =>
      rw [List.foldl_cons, ih]
      cases hc : q.closed with
      | true => simp [push_of_closed hc, hc]
      | false => simp [push_of_open hc, hc]

/-! ## What comes and goes -/

variable {q' q'' : Queue α} {got got' given given' : List α}

/-- Between two states a queue got some items and gave others: what it held and got it gave or
holds. What it holds stands in the order in which it came, and if the oldest item goes first, so
does what it gave. -/
structure Flows (q : Queue α) (got given : List α) (q' : Queue α) : Prop where
  order : q'.order = q.order
  perm : (q.items ++ got).Perm (given ++ q'.items)
  sublist : q'.items.Sublist (q.items ++ got)
  inTurn : q.order = .fifo → q.items ++ got = given ++ q'.items

namespace Flows

theorem of_same (ho : q'.order = q.order) (hi : q'.items = q.items) : Flows q [] [] q' where
  order := ho
  perm := by rw [hi, List.append_nil, List.nil_append]
  sublist := by rw [hi, List.append_nil]
  inTurn := fun _ => by rw [hi, List.append_nil, List.nil_append]

theorem push (q : Queue α) (x : α) : Flows q (if q.closed then [] else [x]) [] (q.push x).2 := by
  cases hc : q.closed with
  | true =>
      rw [push_of_closed hc]
      exact of_same rfl rfl
  | false =>
      rw [push_of_open hc]
      exact ⟨rfl, .refl _, .refl _, fun _ => rfl⟩

theorem take (q : Queue α) : Flows q [] q.take.1.toList q.take.2 where
  order := q.take_order
  perm := by
    rw [List.append_nil]
    exact q.take_toList_perm
  sublist := by
    rw [List.append_nil]
    exact q.take_sublist
  inTurn := fun ho => by
    rw [List.append_nil]
    exact q.take_toList_eq ho

theorem trans (h : Flows q got given q') (h' : Flows q' got' given' q'') :
    Flows q (got ++ got') (given ++ given') q'' where
  order := h'.order.trans h.order
  perm := by
    have hleft := h.perm.append_right got'
    rw [List.append_assoc, List.append_assoc] at hleft
    have hright := h'.perm.append_left given
    rw [← List.append_assoc given given'] at hright
    exact hleft.trans hright
  sublist := by
    rw [← List.append_assoc]
    exact h'.sublist.trans (h.sublist.append_right got')
  inTurn := fun ho => by
    rw [← List.append_assoc, h.inTurn ho, List.append_assoc, h'.inTurn (h.order.trans ho),
      List.append_assoc]

end Flows

end SessionDispatch.Queue
