import SessionDispatch.Address.PeerKey

namespace SessionDispatch

/-- What is done with a payload: the payloads to be sent back. -/
abbrev Handler := PeerKey → List UInt8 → List (List UInt8)

namespace Handler

/-- Sends each payload back. -/
def echo : Handler := fun _ payload => [payload]

/-- Answers nothing. -/
def silent : Handler := fun _ _ => []

/-- Sends each payload back with an acknowledgement behind it. -/
def acknowledging : Handler := fun _ payload => [payload, "ack".toUTF8.toList]

/-- Tells each peer its key. -/
def naming : Handler := fun key _ => [key.text.toUTF8.toList]

/-- Sends the bytes of each payload back one by one. -/
def splitting : Handler := fun _ payload => payload.map ([·])

end Handler

end SessionDispatch
