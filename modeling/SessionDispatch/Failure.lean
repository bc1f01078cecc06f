import SessionDispatch.Address.Socket

namespace SessionDispatch

/-- The refusals of the operating system that an operation of the daemon can meet. -/
inductive OsError
  | notFound
  | badDescriptor
  | wouldBlock
  | alreadyExists
  | invalidInput
  | messageTooLong
  | addressNotAvailable
  | networkUnreachable
deriving DecidableEq, Repr

namespace OsError

def number : OsError → Nat
  | notFound => 2
  | badDescriptor => 9
  | wouldBlock => 11
  | alreadyExists => 17
  | invalidInput => 22
  | messageTooLong => 90
  | addressNotAvailable => 99
  | networkUnreachable => 101

def phrase : OsError → String
  | notFound => "No such file or directory"
  | badDescriptor => "Bad file descriptor"
  | wouldBlock => "Resource temporarily unavailable"
  | alreadyExists => "File exists"
  | invalidInput => "Invalid argument"
  | messageTooLong => "Message too long"
  | addressNotAvailable => "Cannot assign requested address"
  | networkUnreachable => "Network is unreachable"

def message (e : OsError) : String := s!"{e.phrase} (os error {e.number})"

end OsError

/-- Why an input or output operation failed: the system refused it, or there is only a text. -/
inductive IoError
  | os (error : OsError)
  | described (text : String)
deriving DecidableEq, Repr

namespace IoError

def message : IoError → String
  | os e => e.message
  | described t => t

end IoError

/-- What can go wrong in the parts of the daemon. The outcome of a task is lost if it was taken
before or the task never ran. -/
inductive Failure
  | poolClosed
  | taskPanicked (panic : String)
  | taskLost
  | noInterface (family : Family) (host : String)
  | bind (address : SocketAddress) (source : IoError)
  | endpoint (family : Family) (id : Nat) (reason : String)
  | io (source : IoError)
deriving DecidableEq, Repr

namespace Failure

def message : Failure → String
  | poolClosed => "worker pool is shut down"
  | taskPanicked panic => "task panicked: " ++ panic
  | taskLost => "task was dropped before completion"
  | noInterface family host => s!"no {family} interface available for host '{host}'"
  | bind address source => s!"failed to bind UDP socket to {address}: {source.message}"
  | endpoint family id reason => s!"{family} endpoint {id}: {reason}"
  | io source => "IO Error: " ++ source.message

/-- The failure behind this one. -/
def source? : Failure → Option IoError
  | bind _ source | io source => some source
  | _ => none

end Failure

end SessionDispatch
