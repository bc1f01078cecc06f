import SessionDispatch.Text.Fold
import SessionDispatch.Text.ParseError

/-!
# Queues that can be closed

A queue holds its items oldest first. A closed queue takes nothing more, but what it holds can still
be taken.
-/

namespace SessionDispatch

/-- Whether the oldest item of a queue is taken or the newest. -/
inductive Discipline
  | fifo
  | lifo
deriving DecidableEq, Repr, Inhabited

namespace Discipline

def name : Discipline → String
  | fifo => "fifo"
  | lifo => "lifo"

def ofName? : String → Option Discipline
  | "fifo" => some fifo
  | "lifo" => some lifo
  | _ => none

def parse (s : String) : Except ParseError Discipline :=
  (ofName? (foldCase s)).elim (.error (.queueOrder s)) .ok

/-- The name in a description. -/
def title : Discipline → String
  | fifo => "Fifo"
  | lifo => "Lifo"

@[simp] theorem ofName?_name (d : Discipline) : ofName? d.name = some d := by cases d <;> rfl

end Discipline

structure Queue (α : Type) where
  order : Discipline
  items : List α
  closed : Bool
deriving Repr

namespace Queue

variable {α : Type}

def new (order : Discipline) : Queue α := ⟨order, [], false⟩

def size (q : Queue α) : Nat := q.items.length

def isEmpty (q : Queue α) : Bool := q.items.isEmpty

/-- Appends an item, unless the queue is closed; tells whether it did. -/
def push (q : Queue α) (a : α) : Bool × Queue α :=
  if q.closed then (false, q) else (true, { q with items := q.items ++ [a] })

/-- Takes the item whose turn it is. -/
def take (q : Queue α) : Option α × Queue α :=
  match q.order with
  | .fifo => (q.items.head?, { q with items := q.items.tail })
  | .lifo => (q.items.getLast?, { q with items := q.items.dropLast })

def close (q : Queue α) : Queue α := { q with closed := true }

/-- The items in the order in which they would be taken. -/
def pending (q : Queue α) : List α :=
  match q.order with
  | .fifo => q.items
  | .lifo => q.items.reverse

/-- Takes every item. -/
def drain (q : Queue α) : List α × Queue α := (q.pending, { q with items := [] })

def describe (q : Queue α) : String :=
  s!"BlockingQueue \x7b order: {q.order.title}, len: {q.size}, closed: {q.closed} \x7d"

@[simp] theorem closed_close (q : Queue α) : q.close.closed = true := rfl

@[simp] theorem items_close (q : Queue α) : q.close.items = q.items := rfl

theorem push_of_closed {q : Queue α} (h : q.closed = true) (a : α) : q.push a = (false, q) := by
  simp [push, h]

theorem push_of_open {q : Queue α} (h : q.closed = false) (a : α) :
    q.push a = (true, { q with items := q.items ++ [a] }) := by simp [push, h]

/-- What is taken stands first among the pending items, and the rest follow as before. -/
theorem pending_take (q : Queue α) :
    q.take.1 = q.pending.head? ∧ q.take.2.pending = q.pending.tail := by
  cases h : q.order <;> simp [take, pending, h]

theorem take_eq_none_iff (q : Queue α) : q.take.1 = none ↔ q.items = [] := by
  cases h : q.order <;> simp [take, h]

end Queue

end SessionDispatch
