import SessionDispatch.Address.Ipv6

namespace SessionDispatch

inductive Family
  | v4
  | v6
deriving DecidableEq, Repr, Inhabited

namespace Family

def name : Family → String
  | v4 => "IPv4"
  | v6 => "IPv6"

instance : ToString Family := ⟨name⟩

/-- The tag under which a family stands in structured data. -/
def tag : Family → String
  | v4 => "ipv4"
  | v6 => "ipv6"

end Family

/-- A network address without a port. -/
inductive Host
  | v4 (ip : Ipv4)
  | v6 (ip : Ipv6)
deriving DecidableEq, Repr, Inhabited

namespace Host

def chars : Host → List Char
  | v4 ip => ip.chars
  | v6 ip => ip.chars

instance : ToString Host := ⟨fun h => String.ofList h.chars⟩

def scanner : Scanner Host := (v4 <$> Ipv4.scanner) <|> (v6 <$> Ipv6.scanner)

def parse? (s : List Char) : Option Host := Scanner.whole scanner s

def family : Host → Family
  | v4 _ => .v4
  | v6 _ => .v6

end Host

/-- The address of one end of a datagram's way. -/
inductive SocketAddress
  | v4 (ip : Ipv4) (port : UInt16)
  | v6 (ip : Ipv6) (port : UInt16) (flow scope : UInt32)
deriving DecidableEq, Repr, Inhabited

namespace SocketAddress

def host : SocketAddress → Host
  | v4 ip _ => .v4 ip
  | v6 ip _ _ _ => .v6 ip

def port : SocketAddress → UInt16
  | v4 _ port => port
  | v6 _ port _ _ => port

def family (a : SocketAddress) : Family := a.host.family

/-- The address with neither flow label nor scope. -/
def ofHost : Host → UInt16 → SocketAddress
  | .v4 ip, port => v4 ip port
  | .v6 ip, port => v6 ip port 0 0

@[simp] theorem host_ofHost (h : Host) (port : UInt16) : (ofHost h port).host = h := by
  cases h <;> rfl

@[simp] theorem port_ofHost (h : Host) (p : UInt16) : (ofHost h p).port = p := by cases h <;> rfl

/-- The flow label is not shown, and a scope only if it is not zero. -/
def chars : SocketAddress → List Char
  | v4 ip port => ip.chars ++ ':' :: Numeral.decimal port.toNat
  | v6 ip port _ scope =>
    let zone := if scope = 0 then [] else '%' :: Numeral.decimal scope.toNat
    '[' :: (ip.chars ++ zone ++ "]:".toList ++ Numeral.decimal port.toNat)

instance : ToString SocketAddress := ⟨fun a => String.ofList a.chars⟩

/-- The longest run of digits, leading zeros included, if its value is at most `limit`. -/
def number (limit : Nat) : Scanner Nat := do
  let digits ← Scanner.run (Numeral.isDigit 10)
  match Numeral.unsigned? limit digits with
  | some n => return n
  | none => failure

def portScanner : Scanner UInt16 := do
  Scanner.char ':'
  return (← number 0xffff).toUInt16

def scanner : Scanner SocketAddress :=
  (do
    let ip ← Ipv4.scanner
    return v4 ip (← portScanner)) <|>
  (do
    Scanner.char '['
    let ip ← Ipv6.scanner
    let scope ← (do Scanner.char '%'; number 0xffffffff) <|> return 0
    Scanner.char ']'
    return v6 ip (← portScanner) 0 scope.toUInt32)

def parse? (s : List Char) : Option SocketAddress := Scanner.whole scanner s

end SocketAddress

end SessionDispatch
