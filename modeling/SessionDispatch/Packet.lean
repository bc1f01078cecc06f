import SessionDispatch.Address.PeerKey

namespace SessionDispatch

/-- One datagram on its way from or to a peer. -/
structure Packet where
  peer : SocketAddress
  payload : List UInt8
deriving DecidableEq, Repr, Inhabited

namespace Packet

def key (p : Packet) : PeerKey := .ofAddress p.peer

end Packet

end SessionDispatch
