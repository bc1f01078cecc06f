namespace SessionDispatch

/-- A text that is no member of the kind of value it was to name. -/
inductive ParseError
  | peerKey (text : String)
  | logLevel (text : String)
  | queueOrder (text : String)
  | expiryMode (text : String)
deriving DecidableEq, Repr

namespace ParseError

def message : ParseError → String
  | peerKey t => "Invalid peer key: " ++ t
  | logLevel t => "Invalid log level: " ++ t
  | queueOrder t => "Invalid queue order: " ++ t
  | expiryMode t => "Invalid expiry mode: " ++ t

end ParseError

end SessionDispatch
