namespace SessionDispatch

/-- The values that settings are written with. -/
inductive Scalar
  | bool (b : Bool)
  | int (n : Int)
  | text (s : String)
deriving DecidableEq, Repr

/-- Structured data as a document holds it. Of numbers with a fraction and of dates only the
presence is kept, since no setting is one. -/
inductive Tree
  | null
  | scalar (s : Scalar)
  | real
  | date
  | list (items : List Tree)
  | table (entries : List (String × Tree))
deriving Repr, Inhabited

namespace Tree

/-- What a format allows where a value is read from a tree: a list with more items than the record
has fields, and what may stand beside a word that is given as the only key of a table. -/
structure Format where
  surplusItems : Bool
  besideWord : Tree → Bool

def isEmpty : Tree → Bool
  | list [] | table [] => true
  | _ => false

/-- The rules of configuration files. -/
def tomlFormat : Format := ⟨true, isEmpty⟩

/-- The rules of JSON documents. -/
def jsonFormat : Format :=
  ⟨false, fun
    | null => true
    | _ => false⟩

def scalar? : Tree → Option Scalar
  | scalar s => some s
  | _ => none

def bool? : Tree → Option Bool
  | scalar (.bool b) => some b
  | _ => none

def text? : Tree → Option String
  | scalar (.text s) => some s
  | _ => none

/-- A whole number up to `limit`. -/
def nat? (limit : Nat) : Tree → Option Nat
  | scalar (.int (.ofNat n)) => if n ≤ limit then some n else none
  | _ => none

/-- A word, given as a text or as the only key of a table. -/
def word? (format : Format) : Tree → Option String
  | scalar (.text s) => some s
  | table [(s, beside)] => if format.besideWord beside then some s else none
  | _ => none

end Tree

end SessionDispatch
