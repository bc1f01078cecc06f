import SessionDispatch.Address.Socket

namespace SessionDispatch

/-- A loop that runs as long as the daemon. -/
inductive Task
  | timer
  | dispatcher (family : Family) (n : Nat)
  | receiver (family : Family) (endpoint : Nat)
  | sender (family : Family) (endpoint : Nat)
  | reloadWatcher
deriving DecidableEq, Repr

namespace Task

def name : Task → String
  | timer => "timer"
  | dispatcher family n => s!"{family}-dispatcher-{n}"
  | receiver family id => s!"{family}-endpoint-{id}-recv"
  | sender family id => s!"{family}-endpoint-{id}-send"
  | reloadWatcher => "reload-watcher"

end Task

end SessionDispatch
