import SessionDispatch.Toml.Printer

/-!
# Records and their fields

A record is read from a tree and shown as one by a list of its fields, and its scalars are written
as pairs. Fields that are not given have the value of a default record; entries that name no field
are passed over.
-/

namespace SessionDispatch

/-- One field of a record. The first record given to `set` holds the defaults, which a field that is
a record itself begins with. -/
structure Field (σ : Type) where
  name : String
  set : Tree.Format → σ → Tree → σ → Option σ
  get : σ → Tree

namespace Field

variable {σ : Type}

def bool (name : String) (get : σ → Bool) (put : Bool → σ → σ) : Field σ where
  name
  set _ _ t s := t.bool?.map (put · s)
  get s := .scalar (.bool (get s))

def text (name : String) (get : σ → String) (put : String → σ → σ) : Field σ where
  name
  set _ _ t s := t.text?.map (put · s)
  get s := .scalar (.text (get s))

/-- A count of 64 bits. -/
def count (name : String) (get : σ → UInt64) (put : UInt64 → σ → σ) : Field σ where
  name
  set _ _ t s := (t.nat? (UInt64.size - 1)).map (put ·.toUInt64 s)
  get s := .scalar (.int (get s).toNat)

/-- A number of 16 bits. -/
def port (name : String) (get : σ → UInt16) (put : UInt16 → σ → σ) : Field σ where
  name
  set _ _ t s := (t.nat? 0xffff).map (put ·.toUInt16 s)
  get s := .scalar (.int (get s).toNat)

/-- A count that may be absent. -/
def optionalCount (name : String) (get : σ → Option UInt64) (put : Option UInt64 → σ → σ) :
    Field σ where
  name
  set _ _ t s := match t with
    | .null => some (put none s)
    | t => (t.nat? (UInt64.size - 1)).map (fun n => put (some n.toUInt64) s)
  get s := (get s).elim .null fun n => .scalar (.int n.toNat)

/-- One of several words. -/
def word {α : Type} (name : String) (ofName? : String → Option α) (nameOf : α → String)
    (get : σ → α) (put : α → σ → σ) : Field σ where
  name
  set format _ t s := ((t.word? format).bind ofName?).map (put · s)
  get s := .scalar (.text (nameOf (get s)))

end Field

abbrev Record (σ : Type) := List (Field σ)

namespace Record

variable {σ : Type}

/-- Sets the field that an entry names. -/
def setEntry (r : Record σ) (format : Tree.Format) (default s : σ) (entry : String × Tree) :
    Option σ :=
  match r.find? (·.name = entry.1) with
  | some f => f.set format default entry.2 s
  | none => some s

/-- Reads a record from a table, or from the values of its first fields in order. A date is taken
for a table without entries. -/
def read (r : Record σ) (format : Tree.Format) (default : σ) : Tree → Option σ
  | .table entries => entries.foldlM (r.setEntry format default) default
  | .list items =>
    if items.length ≤ r.length ∨ format.surplusItems then
      (r.zip items).foldlM (fun s (f, t) => f.set format default t s) default
    else none
  | .date => some default
  | _ => none

/-- All fields, those without a value as well. -/
def toTree (r : Record σ) (s : σ) : Tree := .table (r.map fun f => (f.name, f.get s))

/-- The scalars among the fields. A value that is absent is not written. -/
def write (r : Record σ) (s : σ) : List (String × Scalar) :=
  r.filterMap fun f => (f.get s).scalar?.map (f.name, ·)

end Record

/-- A record within a record. It is written under a header of its own. -/
def Field.record {σ τ : Type} (name : String) (fields : Record τ) (get : σ → τ)
    (put : τ → σ → σ) : Field σ where
  name
  set format default t s := (fields.read format (get default) t).map (put · s)
  get s := fields.toTree (get s)

end SessionDispatch
