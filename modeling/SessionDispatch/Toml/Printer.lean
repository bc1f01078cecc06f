import SessionDispatch.Data.Tree
import SessionDispatch.Text.Numeral

/-!
# Writing documents

Blocks of pairs under headers. Each text is written in the plainest of the four quotings that can
hold it.
-/

namespace SessionDispatch.Toml

/-- The pairs under one header. -/
structure Block where
  path : List String
  pairs : List (String × Scalar)
deriving DecidableEq, Repr

/-- How a text is quoted. -/
inductive Quoting
  | basic
  | literal
  | multiBasic
  | multiLiteral
deriving DecidableEq, Repr

/-- A control character, other than tab and line feed. -/
def isControl (c : Char) : Bool := (c < ' ' ∧ c ≠ '\t' ∧ c ≠ '\n') ∨ c = '\x7f'

/-- The length of the longest run of a character. -/
def longestRun (mark : Char) : List Char → Nat
  | [] => 0
  | c :: rest => max ((c :: rest).takeWhile (· = mark)).length (longestRun mark rest)

/-- Quotes without escapes before apostrophes, one line before several, and escapes where nothing
else holds the text. -/
def quotingOf (s : List Char) : Quoting :=
  let control := s.any isControl
  let escape := s.contains '\\'
  let several := s.contains '\n'
  let quotes := longestRun '"' s
  let apostrophes := longestRun '\'' s
  if !control && !escape && quotes = 0 && !several then .basic
  else if !control && apostrophes = 0 && !several then .literal
  else if !control && !escape && quotes ≤ 2 then .multiBasic
  else if !control && apostrophes ≤ 2 then .multiLiteral
  else if several then .multiBasic
  else .basic

/-- A character between quotes, other than a quote. On several lines a line feed stands as it is. -/
def escaped (several : Bool) (c : Char) : List Char :=
  if c = '\x08' then ['\\', 'b']
  else if c = '\t' then ['\\', 't']
  else if c = '\n' then if several then ['\n'] else ['\\', 'n']
  else if c = '\x0c' then ['\\', 'f']
  else if c = '\r' then ['\\', 'r']
  else if c = '\\' then ['\\', '\\']
  else if isControl c then '\\' :: 'u' :: (Numeral.hex 4 c.toNat).map Char.toUpper
  else [c]

/-- The inside of a text between quotes. Up to `room` quotes in a row need no escape. -/
def basicChars (several : Bool) (room : Nat) : (run : Nat) → List Char → List Char
  | _, [] => []
  | run, c :: rest =>
    if c = '"' then
      if run < room then '"' :: basicChars several room (run + 1) rest
      else '\\' :: '"' :: basicChars several room 0 rest
    else escaped several c ++ basicChars several room 0 rest

def quotedChars (s : List Char) : List Char :=
  let opening := if s.contains '\n' then ['\n'] else []
  match quotingOf s with
  | .basic => '"' :: (basicChars false 0 0 s ++ ['"'])
  | .literal => '\'' :: (s ++ ['\''])
  | .multiBasic =>
    '"' :: '"' :: '"' :: (opening ++ basicChars true 2 0 s ++ ['"', '"', '"'])
  | .multiLiteral => '\'' :: '\'' :: '\'' :: (opening ++ s ++ ['\'', '\'', '\''])

def scalarChars : Scalar → List Char
  | .bool b => (toString b).toList
  | .int (.ofNat n) => Numeral.decimal n
  | .int (.negSucc n) => '-' :: Numeral.decimal (n + 1)
  | .text s => quotedChars s.toList

/-- A key as it stands, where it needs no quotes. -/
def pairChars (pair : String × Scalar) : List Char :=
  pair.1.toList ++ " = ".toList ++ scalarChars pair.2 ++ ['\n']

def headerChars (path : List String) : List Char :=
  '[' :: ((".".intercalate path).toList ++ [']', '\n'])

def blockChars (b : Block) : List Char := headerChars b.path ++ b.pairs.flatMap pairChars

/-- Blocks with an empty line between them. The parts of keys hold letters, digits and
underscores. -/
def render (blocks : List Block) : String :=
  String.ofList (['\n'].intercalate (blocks.map blockChars))

end SessionDispatch.Toml
