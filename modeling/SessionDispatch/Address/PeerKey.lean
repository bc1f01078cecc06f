import SessionDispatch.Address.Socket
import SessionDispatch.Text.ParseError

/-!
# Peer keys

A peer is known by the text `host-port` of its address. The key leaves out flow label and scope, so
addresses that differ in nothing else share one key.
-/

namespace SessionDispatch

structure PeerKey where
  text : String
deriving DecidableEq, Repr, Inhabited

namespace PeerKey

instance : ToString PeerKey := ⟨text⟩

def ofAddress (a : SocketAddress) : PeerKey :=
  ⟨String.ofList (a.host.chars ++ '-' :: Numeral.decimal a.port.toNat)⟩

/-- The text before and after the last hyphen. -/
def splitLast (s : List Char) : Option (List Char × List Char) :=
  let tail := s.reverse.takeWhile (· ≠ '-')
  match s.reverse.dropWhile (· ≠ '-') with
  | [] => none
  | _ :: front => some (front.reverse, tail.reverse)

/-- The address that a key was made of, less flow label and scope. -/
def address? (k : PeerKey) : Option SocketAddress := do
  let (host, port) ← splitLast k.text.toList
  let host ← Host.parse? host
  let port ← Numeral.unsigned? 0xffff port
  return .ofHost host port.toUInt16

/-- Only a text that `ofAddress` writes is a key. -/
def parse (s : String) : Except ParseError PeerKey :=
  match address? ⟨s⟩ with
  | some a => if ofAddress a = ⟨s⟩ then .ok ⟨s⟩ else .error (.peerKey s)
  | none => .error (.peerKey s)

end PeerKey

end SessionDispatch
