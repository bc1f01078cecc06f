import SessionDispatch.Toml.Statement

/-!
# Documents

A document is read into statements, and these are put together section by section. A section is a
header with the pairs that follow it; the pairs before the first header belong to the document
itself.
-/

namespace SessionDispatch.Toml

namespace Entries

/-- Opens the table at a path and adds pairs to it. A table may be opened once, unless it was only
passed before. -/
def addTable (es : Entries) (path : Key) (pairs : List (Key × Tree)) : Option Entries :=
  alter .passed (fun _ es =>
    let opened := match es.lookup path.last with
      | none => some []
      | some (.table .passed sub) => some sub
      | some _ => none
    do return es.set path.last (.table .header (← addPairs (← opened) pairs)))
    path.front .header es

/-- Appends a table to the list at a path and adds pairs to it. -/
def addItem (es : Entries) (path : Key) (pairs : List (Key × Tree)) : Option Entries :=
  alter .passed (fun _ es =>
    let before := match es.lookup path.last with
      | none => some []
      | some (.tables items) => some items
      | some _ => none
    do return es.set path.last (.tables ((← before) ++ [← addPairs [] pairs])))
    path.front .header es

end Entries

/-- The pairs up to the next header, and the statements from there. -/
def pairsBefore : List Statement → List (Key × Tree) × List Statement
  | [] => ([], [])
  | .blank :: ss => pairsBefore ss
  | .pair k v :: ss => let (pairs, rest) := pairsBefore ss; ((k, v) :: pairs, rest)
  | s :: ss => ([], s :: ss)

theorem pairsBefore_length (ss : List Statement) : (pairsBefore ss).2.length ≤ ss.length := by
  fun_induction pairsBefore ss <;> simp_all <;> omega

/-- Adds what the statements from a header on say. -/
def addSections (es : Entries) : List Statement → Option Entries
  | [] => some es
  | s :: ss =>
    let body := pairsBefore ss
    match s with
    | .table path => do addSections (← es.addTable path body.1) body.2
    | .listItem path => do addSections (← es.addItem path body.1) body.2
    | .pair _ _ | .blank => addSections es ss
termination_by ss => ss.length
decreasing_by
  all_goals have := pairsBefore_length ss; simp; try omega

/-- The tree of a document, if its statements are compatible. -/
def ofStatements? (ss : List Statement) : Option Tree := do
  let body := pairsBefore ss
  let root ← Entries.addPairs [] body.1
  return (← addSections root body.2).tree

/-- Reads a document. -/
def parse? (s : String) : Option Tree := (Scanner.whole statements s.toList).bind ofStatements?

end SessionDispatch.Toml
