/-!
# Scanners

A scanner takes what it reads off the front of a text, or fails. Since a failure carries no text,
`p <|> q` starts `q` where `p` started.
-/

namespace SessionDispatch

abbrev Scanner := StateT (List Char) Option

namespace Scanner

/-- Takes the character `c`. -/
def char (c : Char) : Scanner Unit := fun
  | d :: rest => if d = c then some ((), rest) else none
  | [] => none

/-- Takes any character of a class. -/
def one (p : Char → Bool) : Scanner Char := fun
  | d :: rest => if p d then some (d, rest) else none
  | [] => none

/-- Takes the longest run of characters of a class; the run may be empty. -/
def run (p : Char → Bool) : Scanner (List Char) := fun s => some (s.takeWhile p, s.dropWhile p)

/-- Takes the characters of `t`. -/
def literal : List Char → Scanner Unit
  | [] => pure ()
  | c :: t => do char c; literal t

/-- Takes a run of at least one character. -/
def run1 (p : Char → Bool) : Scanner (List Char) := do
  let s ← run p
  if s.isEmpty then failure else return s

/-- Takes exactly `n` characters of a class. -/
def exactly (n : Nat) (p : Char → Bool) : Scanner (List Char) := fun s =>
  if (s.take n).length = n ∧ (s.take n).all p then some (s.take n, s.drop n) else none

def skip {α : Type} (p : Scanner α) : Scanner Unit := do let _ ← p

/-- Succeeds without taking anything if `p` fails. -/
def maybe {α : Type} (p : Scanner α) : Scanner Unit := skip p <|> return ()

/-- Reads as many as there are, as long as each takes something. -/
def many {α : Type} (p : Scanner α) (s : List Char) : Option (List α × List Char) :=
  match p s with
  | none => some ([], s)
  | some (a, rest) =>
    if rest.length < s.length then (many p rest).map fun (as, r) => (a :: as, r) else some ([], s)
termination_by s.length

/-- Reads one or more with `sep` between them. -/
def separated {α : Type} (p : Scanner α) (sep : Scanner Unit) : Scanner (List α) := do
  let a ← p
  let as ← many (do sep; p)
  return a :: as

/-- Succeeds at the end of the text. -/
def finish : Scanner Unit := fun
  | [] => some ((), [])
  | _ :: _ => none

/-- Reads a whole text. -/
def whole {α : Type} (p : Scanner α) (s : List Char) : Option α :=
  match p s with
  | some (a, []) => some a
  | _ => none

theorem run_append {p : Char → Bool} {s t : List Char} (hs : ∀ c ∈ s, p c)
    (ht : ∀ c ∈ t.head?, ¬ p c) :
    run p (s ++ t) = some (s, t) := by
  have h1 : (s ++ t).takeWhile p = s := by
    rw [List.takeWhile_append_of_pos hs]
    cases t with
    | nil => simp
    | cons c t => simp [ht c (by simp)]
  have h2 : (s ++ t).dropWhile p = t := by
    rw [List.dropWhile_append_of_pos hs]
    cases t with
    | nil => simp
    | cons c t => simp [ht c (by simp)]
  simp [run, h1, h2]

end Scanner

end SessionDispatch
