import SessionDispatch.Address.Ipv4

/-!
# IPv6 addresses

An address is eight groups of sixteen bits. Its text shortens one run of zero groups to `::` and
writes an IPv4-mapped address with its last two groups as an IPv4 address. A reader accepts every
run so shortened, and an IPv4 address in place of the last two groups of any address.
-/

namespace SessionDispatch

structure Ipv6 where
  groups : List UInt16
  length_groups : groups.length = 8
deriving DecidableEq, Repr

namespace Ipv6

/-- The address whose groups are `head`, as many zeros as are missing, and `tail`. -/
def ofParts (head tail : List UInt16) : Ipv6 :=
  let zeros := List.replicate (8 - head.length - tail.length) 0
  ⟨(head ++ zeros ++ tail ++ List.replicate 8 0).take 8, by simp; omega⟩

instance : Inhabited Ipv6 := ⟨ofParts [] []⟩

/-- The two groups that hold an IPv4 address. -/
def groupsOf (ip : Ipv4) : List UInt16 :=
  [ip.a.toUInt16 * 256 + ip.b.toUInt16, ip.c.toUInt16 * 256 + ip.d.toUInt16]

/-- The IPv4 address in an address of the form `::ffff:a.b.c.d`. -/
def mapped? (ip : Ipv6) : Option Ipv4 :=
  match ip.groups with
  | [0, 0, 0, 0, 0, 0xffff, g, h] =>
    some ⟨(g / 256).toUInt8, g.toUInt8, (h / 256).toUInt8, h.toUInt8⟩
  | _ => none

/-- How many zero groups stand at the front. -/
def leadingZeros (gs : List UInt16) : Nat := (gs.takeWhile (· = 0)).length

/-- Start and length of the first of the longest runs of zero groups. -/
def longestZeros : List UInt16 → Nat × Nat
  | [] => (0, 0)
  | g :: gs =>
    let here := leadingZeros (g :: gs)
    let (start, length) := longestZeros gs
    if length ≤ here then (0, here) else (start + 1, length)

/-- Groups in hexadecimal, between colons. -/
def groupChars : List UInt16 → List Char
  | [] => []
  | [g] => Nat.toDigits 16 g.toNat
  | g :: gs => Nat.toDigits 16 g.toNat ++ ':' :: groupChars gs

/-- A run of a single zero group is not shortened. -/
def chars (ip : Ipv6) : List Char :=
  match ip.mapped? with
  | some v4 => "::ffff:".toList ++ v4.chars
  | none =>
    let (start, length) := longestZeros ip.groups
    if length < 2 then groupChars ip.groups
    else
      groupChars (ip.groups.take start) ++ "::".toList ++
        groupChars (ip.groups.drop (start + length))

instance : ToString Ipv6 := ⟨fun ip => String.ofList ip.chars⟩

/-- A group is the longest run of hexadecimal digits, of which there are at most four. -/
def group : Scanner UInt16 := do
  let digits ← Scanner.run (Numeral.isDigit 16)
  if 4 < digits.length then failure
  match Numeral.ofDigits? 16 digits with
  | some n => return n.toUInt16
  | none => failure

/-- All groups but the first of a part come after a colon. -/
def separated {α : Type} (first : Bool) (p : Scanner α) : Scanner α :=
  if first then p else do Scanner.char ':'; p

/-- The groups of one part of an address, up to `room` of them, and whether they end in an
IPv4 address. -/
def part (first : Bool) : (room : Nat) → Scanner (List UInt16 × Bool)
  | 0 => return ([], false)
  | room + 1 =>
    let embedded : Scanner (List UInt16 × Bool) := do
      if room = 0 then failure
      return (groupsOf (← separated first Ipv4.scanner), true)
    let plain : Scanner (List UInt16 × Bool) := do
      let g ← separated first group
      let (gs, v4) ← part false room
      return (g :: gs, v4)
    embedded <|> plain <|> return ([], false)

/-- Before `::` there is no IPv4 address, and `::` stands for at least one group. -/
def scanner : Scanner Ipv6 := do
  let (head, v4) ← part true 8
  if head.length = 8 then return ofParts head []
  if v4 then failure
  Scanner.literal "::".toList
  let (tail, _) ← part true (7 - head.length)
  return ofParts head tail

end Ipv6

end SessionDispatch
