import SessionDispatch.CommandLine.Invocation
import SessionDispatch.Daemon.Start

namespace SessionDispatch.CommandLine

/-- The daemon that a call of the program starts, or how the program exits before it serves. -/
def service (network : Network) (files : Files) (env : Environment) (args : List String)
    (now : Instant) :
    Except Nat Daemon :=
  match Invocation.ofArguments files env args with
  | .ended exit _ _ => .error exit
  | .serve c =>
    match Daemon.start .echo network c now with
    | .ok d => .ok d
    | .error _ => .error 1

end SessionDispatch.CommandLine
