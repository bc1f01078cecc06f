import SessionDispatch.Text.Numeral

/-!
# Bytes in hexadecimal digits

Every byte is written with two lower-case digits.
-/

namespace SessionDispatch.Hex

def encode (bytes : List UInt8) : List Char := bytes.flatMap fun b => Numeral.hex 2 b.toNat

/-- Reads two digits a byte, up to the first pair that is none. -/
def decode : List Char → List UInt8
  | a :: b :: rest =>
    match Numeral.digit? 16 a, Numeral.digit? 16 b with
    | some a, some b => (a * 16 + b).toUInt8 :: decode rest
    | _, _ => []
  | _ => []

end SessionDispatch.Hex
