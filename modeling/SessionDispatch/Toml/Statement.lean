import SessionDispatch.Toml.Entries
import SessionDispatch.Toml.Number
import SessionDispatch.Toml.Quoted

/-!
# The lines of a document

A document is a sequence of statements: headers that open a table or one more table of a list, and
pairs of a key and a value. A value may take several lines.
-/

namespace SessionDispatch.Toml

open Scanner

inductive Statement
  | blank
  | table (path : Key)
  | listItem (path : Key)
  | pair (key : Key) (value : Tree)
deriving Repr

/-- Keys, lists and inline tables nest less deep than this. -/
def nestingLimit : Nat := 80

def isBareKey (c : Char) : Bool := c.isAlphanum || c = '-' || c = '_'

def blanks : Scanner Unit := skip (run isBlank)

/-- A part of a key. -/
def keyPart : Scanner String := singleLine <|> (do return String.ofList (← run1 isBareKey))

def keyOfParts? (parts : List String) : Option Key :=
  parts.getLast?.map fun last => ⟨parts.dropLast, last⟩

def key : Scanner Key := do
  let parts ← separated (do blanks; let part ← keyPart; blanks; return part) (char '.')
  if parts.length < nestingLimit then
    match keyOfParts? parts with
    | some k => return k
    | none => failure
  else failure

def newline : Scanner Unit := fun s => (newline? s).map ((), ·)

/-- A comment, up to the end of its line. -/
def comment : Scanner Unit := do
  char '#'
  skip (run isPlain)

/-- The end of a line or of the document. -/
def lineEnd : Scanner Unit := newline <|> finish

/-- What may stand on a line after a statement. -/
def trailing : Scanner Unit := do
  blanks
  maybe comment
  lineEnd

/-- Blanks, comments and line ends within a list. -/
def space : Scanner Unit := skip (many (skip (run1 isBlank) <|> newline <|> comment))

/-- A list of values, after its opening bracket. -/
def listBody (value : Scanner Tree) : Scanner Tree := do
  let item : Scanner Tree := do space; let v ← value; space; return v
  let items ← separated item (char ',') <|> return []
  unless items.isEmpty do maybe (char ',')
  space
  char ']'
  return .list items

/-- An inline table, after its opening brace. -/
def tableBody (value : Scanner Tree) : Scanner Tree := do
  let pair : Scanner (Key × Tree) := do
    let k ← key
    char '='
    blanks
    let v ← value
    blanks
    return (k, v)
  let pairs ← separated pair (char ',') <|> return []
  blanks
  char '\x7d'
  match Entries.addPairs [] pairs with
  | some es => return es.tree
  | none => failure

/-- A value that holds no others. -/
def simpleValue : Scanner Tree :=
  (do return .scalar (.text (← quoted))) <|> number <|>
    (do literal "true".toList; return .scalar (.bool true)) <|>
    (do literal "false".toList; return .scalar (.bool false))

/-- A value that nests at most `depth` lists and inline tables. -/
def value : (depth : Nat) → Scanner Tree
  | 0 => simpleValue
  | depth + 1 =>
    simpleValue <|> (do char '['; listBody (value depth)) <|>
      (do char '\x7b'; tableBody (value depth))

/-- One statement and the rest of its line. -/
def statement : Scanner Statement :=
  (do comment; lineEnd; return .blank) <|> (do newline; return .blank) <|>
  (do
    literal "[[".toList
    let path ← key
    literal "]]".toList
    trailing
    return .listItem path) <|>
  (do
    char '['
    let path ← key
    char ']'
    trailing
    return .table path) <|>
  (do
    let k ← key
    char '='
    blanks
    let v ← value (nestingLimit - 1)
    trailing
    return .pair k v)

/-- All statements of a document. A byte order mark may come first. -/
def statements : Scanner (List Statement) := do
  maybe (char '\ufeff')
  blanks
  let ss ← many (do let s ← statement; blanks; return s)
  finish
  return ss

end SessionDispatch.Toml
