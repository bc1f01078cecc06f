import SessionDispatch.Proofs.Timer.Pass

/-!
# Histories of a timer

A timer is called in any order while the clock goes on. Every call has an answer, and the answers of
a run tell which numbers were given to events, which cancellations found their event and what the
passes handed out. Since time only ever goes on by a `tick`, the passes of a run take place at
instants that never decrease.
-/

namespace SessionDispatch.Timer

/-- What is done with a timer, and the passing of time. -/
inductive Call (α : Type)
  | schedule (timeout : Span) (repeats : Bool) (action : α)
  | cancel (id : Nat)
  | pass
  | tick (d : Span)
deriving DecidableEq, Repr

inductive Answer (α : Type)
  | armed (id : Nat)
  | cancelled (found : Bool)
  | handedOut (due : List (Event α))
  | ticked
deriving DecidableEq, Repr

namespace Answer

variable {α : Type}

def armed? : Answer α → Option Nat
  | armed id => some id
  | _ => none

def due : Answer α → List (Event α)
  | handedOut due => due
  | _ => []

def isFound : Answer α → Bool
  | cancelled found => found
  | _ => false

end Answer

/-- A timer at an instant. -/
structure Clocked (α : Type) where
  timer : Timer α := {}
  now : Instant

namespace Clocked

variable {α : Type}

def call (s : Clocked α) : Call α → Answer α × Clocked α
  | .schedule timeout repeats action =>
    let (id, timer) := s.timer.schedule s.now timeout repeats action
    (.armed id, { s with timer })
  | .cancel id =>
    let (found, timer) := s.timer.cancel id
    (.cancelled found, { s with timer })
  | .pass =>
    let (due, timer) := s.timer.pass s.now
    (.handedOut due, { s with timer })
  | .tick d => (.ticked, { s with now := s.now + d })

def run (s : Clocked α) (calls : List (Call α)) : Clocked α :=
  calls.foldl (fun s c => (s.call c).2) s

def answers (s : Clocked α) : List (Call α) → List (Answer α)
  | [] => []
  | c :: calls => (s.call c).1 :: answers (s.call c).2 calls

/-- All events that the passes of a run hand out, in order. -/
def handedOut (s : Clocked α) (calls : List (Call α)) : List (Event α) :=
  (s.answers calls).flatMap (·.due)

variable (s : Clocked α) (calls : List (Call α)) (c : Call α)

theorem run_append (more : List (Call α)) : s.run (calls ++ more) = (s.run calls).run more :=
  List.foldl_append

theorem run_concat : s.run (calls ++ [c]) = ((s.run calls).call c).2 := by
  rw [run_append]
  rfl

theorem answers_append (more : List (Call α)) :
    s.answers (calls ++ more) = s.answers calls ++ (s.run calls).answers more := by
  induction calls generalizing s with
  | nil => rfl
  | cons c calls ih => simp only [List.cons_append, answers, ih, run, List.foldl_cons]

theorem answers_concat :
    s.answers (calls ++ [c]) = s.answers calls ++ [((s.run calls).call c).1] := by
  rw [answers_append]
  rfl

theorem handedOut_concat :
    s.handedOut (calls ++ [c]) = s.handedOut calls ++ ((s.run calls).call c).1.due := by
  simp [handedOut, answers_concat]

end Clocked

def elapsed {α : Type} : List (Call α) → Span
  | [] => 0
  | .tick d :: calls => d + elapsed calls
  | _ :: calls => elapsed calls

namespace Clocked

variable {α : Type}

theorem now_run (s : Clocked α) (calls : List (Call α)) :
    (s.run calls).now = s.now + elapsed calls := by
  induction calls generalizing s with
  | nil => rfl
  | cons c calls ih =>
      rw [run, List.foldl_cons, ← run, ih]
      cases c <;> simp only [call, elapsed, Nat.add_assoc]

variable {s : Clocked α}

theorem valid_call (v : s.timer.Valid s.now) (c : Call α) :
    (s.call c).2.timer.Valid (s.call c).2.now := by
  cases c with
  | schedule timeout repeats action => exact v.schedule timeout repeats action
  | cancel id => exact v.cancel id
  | pass => exact v.pass
  | tick d => exact v.mono (Nat.le_add_right _ _)

theorem valid_run (v : s.timer.Valid s.now) (calls : List (Call α)) :
    (s.run calls).timer.Valid (s.run calls).now := by
  induction calls generalizing s with
  | nil => exact v
  | cons c calls ih => exact ih (valid_call v c)

/-- Numbers are handed out in counting order, so none is handed out twice. -/
theorem armed_answers (s : Clocked α) (calls : List (Call α)) :
    ∃ n, (s.answers calls).filterMap (·.armed?) = List.range' s.timer.nextId n ∧
      (s.run calls).timer.nextId = s.timer.nextId + n := by
  induction calls generalizing s with
  | nil => exact ⟨0, rfl, rfl⟩
  | cons c calls ih =>
      obtain ⟨n, ha, hn⟩ := ih (s.call c).2
      cases c with
      | schedule timeout repeats action =>
          refine ⟨n + 1, ?_, ?_⟩
          · rw [List.range'_succ]
            exact congrArg _ ha
          · rw [run, List.foldl_cons, ← run, hn]
            simp only [call, Timer.schedule]
            omega
      | cancel id => exact ⟨n, ha, hn⟩
      | pass => exact ⟨n, ha, hn⟩
      | tick d => exact ⟨n, ha, hn⟩

theorem nextId_le_run (s : Clocked α) (calls : List (Call α)) :
    s.timer.nextId ≤ (s.run calls).timer.nextId := by
  obtain ⟨n, -, hn⟩ := s.armed_answers calls
  omega

end Clocked

end SessionDispatch.Timer
