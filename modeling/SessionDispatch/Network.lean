import SessionDispatch.Failure

/-!
# Networks

What the system decides when a socket is bound or a datagram sent, and which hosts a name stands
for.
-/

namespace SessionDispatch

/-- The hosts behind a name, in order of preference; the address that a socket gets when it is
bound, where sockets are numbered in the order in which they are to be bound; why a datagram of some
length cannot be sent to an address, and whether one that could be sent gets there. -/
structure Network where
  hosts : String → List Host
  bind : Nat → SocketAddress → Except OsError SocketAddress
  sendError? : SocketAddress → Nat → Option OsError
  reaches : SocketAddress → Bool

namespace Network

/-- The first address of the family that a host has. An address stands for itself. -/
def resolve (n : Network) (family : Family) (host : String) (port : UInt16) :
    Except Failure SocketAddress :=
  let candidates := match Host.parse? host.toList with
    | some h => [h]
    | none => n.hosts host
  match candidates.find? (·.family = family) with
  | some h => .ok (.ofHost h port)
  | none => .error (.noInterface family host)

/-- The longest payload that a datagram can have at all. -/
def maxLength : Nat := 65535

/-- The port that is picked for a socket that asks for none. -/
def freePort (n : Nat) : UInt16 := (49152 + n % 16384).toUInt16

/-- A network without a way out: every IPv4 address can be bound, and nothing can be reached but the
unspecified address, which swallows datagrams. -/
def isolated : Network where
  hosts _ := []
  bind n
    | .v4 ip port => .ok (.v4 ip (if port = 0 then freePort n else port))
    | .v6 .. => .error .addressNotAvailable
  sendError? target length :=
    if maxLength < length then some .messageTooLong
    else if target.port = 0 then some .invalidInput
    else if target.host = .v4 .unspecified then
      if 65507 < length then some .messageTooLong else none
    else some .networkUnreachable
  reaches _ := false

/-- A network in which every address can be bound and reached. -/
def unlimited : Network where
  hosts _ := []
  bind n a := .ok (.ofHost a.host (if a.port = 0 then freePort n else a.port))
  sendError? _ _ := none
  reaches _ := true

end Network

end SessionDispatch
