import SessionDispatch.Network
import SessionDispatch.Packet

namespace SessionDispatch

/-- A bound socket, and how much of a datagram is read from it. -/
structure Endpoint where
  id : Nat
  address : SocketAddress
  bufferSize : Nat
deriving DecidableEq, Repr

namespace Endpoint

def family (e : Endpoint) : Family := e.address.family

/-- Finds the first address of the family that a host has and binds a socket to it. The endpoint is
the `n`-th of all that were to be bound. -/
def bind (network : Network) (n id : Nat) (family : Family) (host : String) (port : UInt16)
    (bufferSize : Nat) : Except Failure Endpoint := do
  let wanted ← network.resolve family host port
  match network.bind n wanted with
  | .ok address => .ok ⟨id, address, bufferSize⟩
  | .error e => .error (.bind wanted (.os e))

def failure (e : Endpoint) (reason : String) : Failure := .endpoint e.family e.id reason

/-- What is left of a datagram when it is read: its first bytes, as many as the buffer holds. -/
def cut (e : Endpoint) (datagram : Packet) : Packet :=
  { datagram with payload := datagram.payload.take e.bufferSize }

end Endpoint

end SessionDispatch
