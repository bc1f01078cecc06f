import SessionDispatch.Text.Numeral
import SessionDispatch.Text.Scanner

/-!
# Quoted texts

Four ways to write a text: between quotes with escapes, or between apostrophes as it stands, and
each of them on one line or, with the mark three times, on several. Reading takes the text after its
opening mark and leaves what follows the closing one.
-/

namespace SessionDispatch.Toml

/-- A character that may stand in a document outside line ends: a tab, or no control character. -/
def isPlain (c : Char) : Bool := c = '\t' ∨ (' ' ≤ c ∧ c ≠ '\x7f')

def isBlank (c : Char) : Bool := c = ' ' ∨ c = '\t'

/-- The character with a number of `width` hexadecimal digits. -/
def numbered (width : Nat) (s : List Char) : Option (Char × List Char) :=
  let digits := s.take width
  if digits.length = width then
    match Numeral.ofDigits? 16 digits with
    | some n => if n.isValidChar then some (Char.ofNat n, s.drop width) else none
    | none => none
  else none

/-- The character that an escape stands for, after its backslash. -/
def escape : List Char → Option (Char × List Char)
  | 'b' :: rest => some ('\x08', rest)
  | 't' :: rest => some ('\t', rest)
  | 'n' :: rest => some ('\n', rest)
  | 'f' :: rest => some ('\x0c', rest)
  | 'r' :: rest => some ('\r', rest)
  | '"' :: rest => some ('"', rest)
  | '\\' :: rest => some ('\\', rest)
  | 'u' :: rest => numbered 4 rest
  | 'U' :: rest => numbered 8 rest
  | _ => none

theorem numbered_length {width : Nat} {s r : List Char} {c : Char}
    (h : numbered width s = some (c, r)) :
    r.length ≤ s.length := by
  simp only [numbered] at h
  split at h
  · split at h
    · split at h
      · obtain ⟨-, rfl⟩ := Prod.mk.injEq .. ▸ Option.some.injEq .. ▸ h
        simp
      · simp at h
    · simp at h
  · simp at h

theorem escape_length {s r : List Char} {c : Char} (h : escape s = some (c, r)) :
    r.length < s.length := by
  unfold escape at h
  split at h
  case h_10 => simp at h
  case h_8 | h_9 => have := numbered_length h; simp; omega
  all_goals
    obtain ⟨-, rfl⟩ := Prod.mk.injEq .. ▸ Option.some.injEq .. ▸ h
    simp

/-- The rest of a text between quotes. -/
def basicBody (s : List Char) : Option (List Char × List Char) :=
  match s with
  | [] => none
  | '"' :: rest => some ([], rest)
  | '\\' :: rest =>
    match _h : escape rest with
    | some (c, r) => (basicBody r).map fun (t, r) => (c :: t, r)
    | none => none
  | c :: rest => if isPlain c then (basicBody rest).map fun (t, r) => (c :: t, r) else none
termination_by s.length
decreasing_by
  · have := escape_length _h
    simp only [List.length_cons]
    omega
  · simp only [List.length_cons]
    omega

/-- The rest of a text between apostrophes. -/
def literalBody : List Char → Option (List Char × List Char)
  | [] => none
  | '\'' :: rest => some ([], rest)
  | c :: rest => if isPlain c then (literalBody rest).map fun (t, r) => (c :: t, r) else none

/-- Drops the first line end. -/
def newline? : List Char → Option (List Char)
  | '\n' :: rest | '\r' :: '\n' :: rest => some rest
  | _ => none

/-- Drops blanks and line ends. -/
def dropSpace : List Char → List Char
  | '\r' :: '\n' :: rest => dropSpace rest
  | c :: rest => if isBlank c ∨ c = '\n' then dropSpace rest else c :: rest
  | [] => []

theorem dropSpace_length (s : List Char) : (dropSpace s).length ≤ s.length := by
  fun_induction dropSpace s <;> simp_all <;> omega

/-- What follows a backslash at the end of a line: the text goes on at the next character that is no
blank and no line end. -/
def continued? (s : List Char) : Option (List Char) :=
  (newline? (s.dropWhile isBlank)).map dropSpace

theorem newline?_length {s r : List Char} (h : newline? s = some r) : r.length < s.length := by
  unfold newline? at h
  split at h
  · cases h
    simp only [List.length_cons]
    omega
  · cases h
    simp only [List.length_cons]
    omega
  · cases h

theorem length_dropWhile_le (p : Char → Bool) (s : List Char) : (s.dropWhile p).length ≤ s.length :=
  (List.dropWhile_sublist p).length_le

theorem continued?_length {s r : List Char} (h : continued? s = some r) : r.length < s.length := by
  simp only [continued?, Option.map_eq_some_iff] at h
  obtain ⟨t, ht, rfl⟩ := h
  have h1 := newline?_length ht
  have h2 := dropSpace_length t
  have h3 := length_dropWhile_le isBlank s
  omega

/-- How a text on several lines ends at a run of marks: up to two of them before the closing three
belong to the text. -/
def closing? (mark : Char) (s : List Char) : Option (List Char × List Char) :=
  let marks := (s.takeWhile (· = mark)).length
  if marks < 3 then none
  else
    let inside := min (marks - 3) 2
    some (List.replicate inside mark, s.drop (inside + 3))

/-- The rest of a text between triple quotes. -/
def multiBasicBody (s : List Char) : Option (List Char × List Char) :=
  match closing? '"' s with
  | some done => some done
  | none =>
    match s with
    | [] => none
    | '\\' :: rest =>
      match _h : continued? rest with
      | some r => multiBasicBody r
      | none =>
        match _h : escape rest with
        | some (c, r) => (multiBasicBody r).map fun (t, r) => (c :: t, r)
        | none => none
    | '\r' :: '\n' :: rest => (multiBasicBody rest).map fun (t, r) => ('\n' :: t, r)
    | c :: rest =>
      if isPlain c ∨ c = '\n' then (multiBasicBody rest).map fun (t, r) => (c :: t, r) else none
termination_by s.length
decreasing_by
  · have := continued?_length _h
    simp only [List.length_cons]
    omega
  · have := escape_length _h
    simp only [List.length_cons]
    omega
  · simp only [List.length_cons]
    omega
  · simp only [List.length_cons]
    omega

/-- The rest of a text between triple apostrophes. -/
def multiLiteralBody (s : List Char) : Option (List Char × List Char) :=
  match closing? '\'' s with
  | some done => some done
  | none =>
    match s with
    | [] => none
    | '\r' :: '\n' :: rest => (multiLiteralBody rest).map fun (t, r) => ('\n' :: t, r)
    | c :: rest =>
      if isPlain c ∨ c = '\n' then (multiLiteralBody rest).map fun (t, r) => (c :: t, r) else none
termination_by s.length
decreasing_by
  · simp only [List.length_cons]
    omega
  · simp only [List.length_cons]
    omega

/-- A line end right after the opening mark does not belong to the text. -/
def trimFirst (s : List Char) : List Char := (newline? s).getD s

/-- A text on one line. -/
def singleLine : Scanner String := fun s =>
  match s with
  | '"' :: rest => (basicBody rest).map fun (t, r) => (String.ofList t, r)
  | '\'' :: rest => (literalBody rest).map fun (t, r) => (String.ofList t, r)
  | _ => none

def quoted : Scanner String := fun s =>
  match s with
  | '"' :: '"' :: '"' :: rest =>
    (multiBasicBody (trimFirst rest)).map fun (t, r) => (String.ofList t, r)
  | '\'' :: '\'' :: '\'' :: rest =>
    (multiLiteralBody (trimFirst rest)).map fun (t, r) => (String.ofList t, r)
  | _ => singleLine s

end SessionDispatch.Toml
