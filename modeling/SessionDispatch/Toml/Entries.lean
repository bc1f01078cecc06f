import SessionDispatch.Data.Tree

/-!
# Tables under construction

A table may be named on the way to another one, or be built up by keys of several parts, and only
some of these may be gone on with later. So while a document is put together, every table keeps
where it came from.
-/

namespace SessionDispatch.Toml

/-- A key of one or more parts, the last of which stands apart. -/
structure Key where
  front : List String
  last : String
deriving DecidableEq, Repr

/-- Where the tables of a document come from: a header of their own or braces, the header of another
table that names them on the way, or a key of several parts. -/
inductive Origin
  | header
  | passed
  | dotted
deriving DecidableEq, Repr

/-- What stands under a key while a document is put together. -/
inductive Node
  | value (t : Tree)
  | table (origin : Origin) (entries : List (String × Node))
  | tables (items : List (List (String × Node)))

abbrev Entries := List (String × Node)

mutual

/-- The finished form of a node, which does not tell where tables came from. -/
def Node.tree : Node → Tree
  | .value t => t
  | .table _ entries => .table (entryTrees entries)
  | .tables items => .list (itemTrees items)

def entryTrees : List (String × Node) → List (String × Tree)
  | [] => []
  | (k, n) :: entries => (k, n.tree) :: entryTrees entries

def itemTrees : List (List (String × Node)) → List Tree
  | [] => []
  | entries :: items => .table (entryTrees entries) :: itemTrees items

end

namespace Entries

def tree (es : Entries) : Tree := .table (entryTrees es)

def set (es : Entries) (k : String) (n : Node) : Entries :=
  if es.any (·.1 = k) then es.map fun (j, m) => if j = k then (j, n) else (j, m) else es ++ [(k, n)]

/-- Changes the table at a path. Tables on the way that are missing are made with the given
origin, and a list stands for its last table. A key of several parts does not enter a table that
has a header. -/
def alter (made : Origin) (f : Origin → Entries → Option Entries) :
    (path : List String) → Origin → Entries → Option Entries
  | [], origin, es => f origin es
  | k :: path, _, es =>
    match es.lookup k with
    | none => do
      let sub ← alter made f path made []
      return es.set k (.table made sub)
    | some (.value _) => none
    | some (.table origin sub) =>
      if made = .dotted ∧ origin = .header then none
      else do
        let sub ← alter made f path origin sub
        return es.set k (.table origin sub)
    | some (.tables items) => do
      let last ← items.getLast?
      let last ← alter made f path .header last
      return es.set k (.tables (items.dropLast ++ [last]))

/-- Adds a value. A key of several parts adds only to tables made by such keys. -/
def addPair (es : Entries) (key : Key) (value : Tree) : Option Entries :=
  alter .dotted (fun origin es =>
    if origin = .dotted ↔ key.front = [] then none
    else if (es.lookup key.last).isSome then none
    else some (es.set key.last (.value value))) key.front .header es

def addPairs (es : Entries) (pairs : List (Key × Tree)) : Option Entries :=
  pairs.foldlM (fun es (key, value) => es.addPair key value) es

end Entries

end SessionDispatch.Toml
