import SessionDispatch.Queue

/-!
# Consumers that wait at a queue

A consumer that finds an open queue empty falls asleep. Pushing an item and waking a sleeper are two
acts, since the wake-up is sent after the queue's lock has been given back, and a consumer that was
woken has to look at the queue again. Each `Act` is what one thread does without interruption; a
schedule of them is a run of any number of producers and consumers.
-/

namespace SessionDispatch

/-- A queue together with the consumers that sleep at it, in the order in which they fell asleep,
those that were woken and have not looked at the queue since, and the wake-ups still to be sent, for
pushes to one sleeper and for closings to all. -/
structure Blocking (α : Type) where
  queue : Queue α
  sleepers : List Nat
  woken : List Nat
  signals : Nat
  broadcasts : Nat
deriving Repr

namespace Blocking

variable {α : Type}

/-- A consumer's answer: an item, or none from a closed queue. -/
structure Answer (α : Type) where
  consumer : Nat
  item : Option α
deriving Repr

/-- What one thread does without interruption. A wake-up may find nobody asleep, and a sleeper may
stir without cause. -/
inductive Act (α : Type)
  | push (a : α)
  | pop (consumer : Nat)
  | tryPop (consumer : Nat)
  | close
  | signal (sleeper : Option Nat)
  | broadcast
  | resume (consumer : Nat)
  | stir (consumer : Nat)
deriving Repr

def new (order : Discipline) : Blocking α := ⟨.new order, [], [], 0, 0⟩

/-- A consumer that has the lock takes an item or, if the queue is open and empty, falls asleep. -/
def look (b : Blocking α) (consumer : Nat) : Blocking α × Option (Answer α) :=
  if b.queue.isEmpty ∧ b.queue.closed = false then
    ({ b with sleepers := b.sleepers ++ [consumer] }, none)
  else
    let (item, queue) := b.queue.take
    ({ b with queue }, some ⟨consumer, item⟩)

/-- One act, if it can happen, and the answer that it gives to a consumer. -/
def act (b : Blocking α) : Act α → Option (Blocking α × Option (Answer α))
  | .push a =>
    let (accepted, queue) := b.queue.push a
    some ({ b with queue, signals := if accepted then b.signals + 1 else b.signals }, none)
  | .pop consumer =>
    if consumer ∈ b.sleepers ∨ consumer ∈ b.woken then none else some (b.look consumer)
  | .tryPop consumer =>
    let (item, queue) := b.queue.take
    some ({ b with queue }, some ⟨consumer, item⟩)
  | .close => some ({ b with queue := b.queue.close, broadcasts := b.broadcasts + 1 }, none)
  | .signal none =>
    if 0 < b.signals ∧ b.sleepers = [] then
      some ({ b with signals := b.signals - 1 }, none)
    else none
  | .signal (some c) =>
    if 0 < b.signals ∧ c ∈ b.sleepers then
      some ({ b with signals := b.signals - 1, sleepers := b.sleepers.erase c,
                     woken := b.woken ++ [c] }, none)
    else none
  | .broadcast =>
    if 0 < b.broadcasts then
      some ({ b with broadcasts := b.broadcasts - 1, sleepers := [],
                     woken := b.woken ++ b.sleepers }, none)
    else none
  | .resume c =>
    if c ∈ b.woken then some ({ b with woken := b.woken.erase c }.look c) else none
  | .stir c =>
    if c ∈ b.sleepers then
      some ({ b with sleepers := b.sleepers.erase c, woken := b.woken ++ [c] }, none)
    else none

/-- A run of acts with the answers given in it; none if one of the acts cannot happen. -/
def run (b : Blocking α) : List (Act α) → Option (Blocking α × List (Answer α))
  | [] => some (b, [])
  | a :: acts => do
    let (b, answer) ← b.act a
    let (b, answers) ← b.run acts
    return (b, answer.toList ++ answers)

/-- The acts that are due without anyone calling the queue: wake-ups, then woken consumers. -/
def due (b : Blocking α) : Option (Act α) :=
  if 0 < b.signals then some (.signal b.sleepers.head?)
  else if 0 < b.broadcasts then some .broadcast
  else b.woken.head?.map .resume

/-- Does what is due, at most `limit` times. -/
def settleWithin : (limit : Nat) → Blocking α → Blocking α × List (Answer α)
  | 0, b => (b, [])
  | limit + 1, b =>
    match b.due.bind b.act with
    | none => (b, [])
    | some (b, answer) =>
      let (b, answers) := settleWithin limit b
      (b, answer.toList ++ answers)

/-- Does what is due until everything rests. A wake-up moves at most every sleeper to the woken, and
a woken consumer that falls asleep again is not woken without a further wake-up. -/
def settle (b : Blocking α) : Blocking α × List (Answer α) :=
  b.settleWithin (b.signals + b.broadcasts + b.sleepers.length + b.woken.length)

end Blocking

end SessionDispatch
