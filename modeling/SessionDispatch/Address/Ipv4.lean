import SessionDispatch.Text.Numeral
import SessionDispatch.Text.Scanner

namespace SessionDispatch

structure Ipv4 where
  a : UInt8
  b : UInt8
  c : UInt8
  d : UInt8
deriving DecidableEq, Repr, Inhabited

namespace Ipv4

def loopback : Ipv4 := ⟨127, 0, 0, 1⟩

def unspecified : Ipv4 := ⟨0, 0, 0, 0⟩

/-- The four octets in decimal, between points. -/
def chars (ip : Ipv4) : List Char :=
  Numeral.decimal ip.a.toNat ++ '.' :: (Numeral.decimal ip.b.toNat ++ '.' ::
    (Numeral.decimal ip.c.toNat ++ '.' :: Numeral.decimal ip.d.toNat))

instance : ToString Ipv4 := ⟨fun ip => String.ofList ip.chars⟩

/-- An octet is the longest run of digits, without a leading zero. -/
def octet : Scanner UInt8 := do
  let digits ← Scanner.run (Numeral.isDigit 10)
  if digits.head? = some '0' ∧ digits ≠ ['0'] then failure
  match Numeral.unsigned? 255 digits with
  | some n => return n.toUInt8
  | none => failure

def scanner : Scanner Ipv4 := do
  let a ← octet
  Scanner.char '.'
  let b ← octet
  Scanner.char '.'
  let c ← octet
  Scanner.char '.'
  return ⟨a, b, c, ← octet⟩

end Ipv4

end SessionDispatch
