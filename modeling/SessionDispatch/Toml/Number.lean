import SessionDispatch.Data.Tree
import SessionDispatch.Text.Numeral
import SessionDispatch.Text.Scanner

/-!
# Numbers and dates in documents

Whole numbers are signed and have 64 bits; between two digits an underscore may stand. Numbers with
a fraction or an exponent and dates are recognised and checked, and their values dropped.
-/

namespace SessionDispatch.Toml

open Scanner

/-- What follows the first digit of a number, without its underscores. -/
def moreDigits (base : Nat) : List Char → List Char × List Char
  | '_' :: c :: rest =>
    if Numeral.isDigit base c then
      let (ds, r) := moreDigits base rest
      (c :: ds, r)
    else ([], '_' :: c :: rest)
  | c :: rest =>
    if Numeral.isDigit base c then
      let (ds, r) := moreDigits base rest
      (c :: ds, r)
    else ([], c :: rest)
  | [] => ([], [])

/-- One or more digits with single underscores between them. -/
def digits (base : Nat) : Scanner (List Char) := fun
  | c :: rest =>
    if Numeral.isDigit base c then
      let (ds, r) := moreDigits base rest
      some (c :: ds, r)
    else none
  | [] => none

/-- A sign: whether it is a minus. No sign is a plus. -/
def sign : Scanner Bool :=
  (do char '-'; return true) <|> (do char '+'; return false) <|> return false

/-- Decimal digits without a leading zero. -/
def wholeDigits : Scanner (List Char) :=
  (do char '0'; return ['0']) <|> digits 10

def based (letter : Char) (base : Nat) : Scanner Int := do
  char '0'
  char letter
  match Numeral.ofDigits? base (← digits base) with
  | some n => if n < UInt64.size / 2 then return n else failure
  | none => failure

def decimal : Scanner Int := do
  let negative ← sign
  match Numeral.ofDigits? 10 (← wholeDigits) with
  | some n =>
    if negative then if n ≤ UInt64.size / 2 then return -n else failure
    else if n < UInt64.size / 2 then return n else failure
  | none => failure

def integer : Scanner Int := based 'x' 16 <|> based 'o' 8 <|> based 'b' 2 <|> decimal

def exponent : Scanner Int := do
  skip (char 'e' <|> char 'E')
  let negative ← sign
  let n := (Numeral.ofDigits? 10 (← digits 10)).getD 0
  return if negative then -n else n

/-- The least value that is nearer to 2^1024 than to the greatest double below it, or as near. -/
def overflow : Nat := (Nat.pow 2 54 - 1) * Nat.pow 2 970

/-- Whether a decimal number is too large for a double. Its first digit that is not zero decides,
except in the decade of the bound. -/
def overflows (whole fraction : List Char) (exp : Int) : Bool :=
  let significant := (whole ++ fraction).dropWhile (· = '0')
  let point : Int := exp - fraction.length
  let magnitude : Int := significant.length + point
  if significant.isEmpty then false
  else if magnitude ≠ 309 then magnitude > 309
  else
    let n := (Numeral.ofDigits? 10 significant).getD 0
    if 0 ≤ point then overflow ≤ n * Nat.pow 10 point.toNat
    else overflow * Nat.pow 10 (-point).toNat ≤ n

/-- A number with a fraction or an exponent. One that is too large is refused, if it is positive. -/
def fractional : Scanner Unit := do
  let negative ← sign
  let whole ← wholeDigits
  let (fraction, exp) ←
    (do char '.'
        let fraction ← digits 10
        let exp ← exponent <|> return 0
        return (fraction, exp)) <|>
    (do return ([], ← exponent))
  if negative = false ∧ overflows whole fraction exp then failure

def special : Scanner Unit := do
  let _ ← sign
  literal "inf".toList <|> literal "nan".toList

/-- Two decimal digits between the bounds. -/
def two (lo hi : Nat) : Scanner Nat := do
  let n := (Numeral.ofDigits? 10 (← exactly 2 (Numeral.isDigit 10))).getD 0
  if lo ≤ n ∧ n ≤ hi then return n else failure

def isLeap (year : Nat) : Bool := year % 4 = 0 && (year % 100 ≠ 0 || year % 400 = 0)

def daysIn (year month : Nat) : Nat :=
  if month = 2 then if isLeap year then 29 else 28
  else if month ∈ [4, 6, 9, 11] then 30 else 31

def day : Scanner Unit := do
  let year := (Numeral.ofDigits? 10 (← exactly 4 (Numeral.isDigit 10))).getD 0
  char '-'
  let month ← two 1 12
  char '-'
  skip (two 1 (daysIn year month))

def time : Scanner Unit := do
  skip (two 0 23)
  char ':'
  skip (two 0 59)
  char ':'
  skip (two 0 60)
  maybe (do char '.'; run1 (Numeral.isDigit 10))

def zone : Scanner Unit :=
  char 'Z' <|> char 'z' <|> (do
    char '+' <|> char '-'
    skip (two 0 23)
    char ':'
    skip (two 0 59))

def date : Scanner Unit :=
  (do
    day
    maybe (do
      char 'T' <|> char 't' <|> char ' '
      time
      maybe zone)) <|> time

/-- A date, a number with a fraction, or a whole number. -/
def number : Scanner Tree :=
  (do date; return .date) <|> (do fractional; return .real) <|> (do special; return .real) <|>
    (do return .scalar (.int (← integer)))

end SessionDispatch.Toml
