namespace SessionDispatch

/-- What stands under a path. The bytes of a binary file are no text. -/
inductive FileEntry
  | text (content : String)
  | binary
  | directory
deriving DecidableEq, Repr

/-- The files below the working directory, each with the parts of its path. Directories on the
way exist. -/
abbrev Files := List (List String × FileEntry)

namespace Files

/-- What stands at a place below the working directory. -/
def at? (files : Files) (place : List String) : Option FileEntry :=
  match files.lookup place with
  | some entry => some entry
  | none =>
    if place = [] ∨ files.any (fun f => place.isPrefixOf f.1) then some .directory else none

/-- A part of a path that names no entry of a directory. -/
def isStep (part : String) : Bool := part = "" ∨ part = "." ∨ part = ".."

/-- Follows the parts of a path. Every part but the last must lead to a directory, and outside the
working directory nothing but directories is known. -/
def walk (files : Files) (place : List String) : List String → Option FileEntry
  | [] => files.at? place
  | part :: rest =>
    match files.at? place with
    | some .directory =>
      if part = "" ∨ part = "." then walk files place rest
      else if part = ".." then
        if place = [] then if rest.all isStep then some .directory else none
        else walk files place.dropLast rest
      else walk files (place ++ [part]) rest
    | _ => none

/-- The one file that is known under a path. -/
def ofPath (path : String) (entry : FileEntry) : Files :=
  let parts := path.splitOn "/"
  [(if path.front = '/' then parts else parts.filter fun part => part ≠ "" ∧ part ≠ ".", entry)]

/-- The bytes of the longest path that is followed. -/
def longestPath : Nat := 4095

/-- Whether a path has a form that can name something. -/
def isPath (path : String) : Bool :=
  path ≠ "" ∧ path.utf8ByteSize ≤ longestPath ∧ '\x00' ∉ path.toList

/-- What stands under a path. A file outside the working directory is known only under the very path
that it was given with. -/
def find? (files : Files) (path : String) : Option FileEntry :=
  let parts := path.splitOn "/"
  if !isPath path then none
  else if path.front = '/' then
    if parts.all isStep then some .directory else files.lookup parts
  else files.walk [] parts

end Files

end SessionDispatch
