import SessionDispatch.CommandLine.Help
import SessionDispatch.Settings.Configuration

namespace SessionDispatch.CommandLine

/-- What a call of the program comes to. -/
inductive Invocation
  | ended (exit : Nat) (stdout stderr : String)
  | serve (c : Configuration)
deriving Repr

namespace Invocation

/-- A line that asks for help, for the version or for the default settings gets it, whatever the
files say; any other needs a valid configuration. -/
def ofArguments (files : Files) (env : Environment) (args : List String) : Invocation :=
  match parse args with
  | .error .displayHelp => .ended 0 helpText ""
  | .error .displayVersion => .ended 0 versionText ""
  | .error _ => .ended 2 "" helpText
  | .ok flags =>
    if flags.printDefaultConfig then .ended 0 ((Settings.default env.processors).render ++ "\n") ""
    else match (Configuration.resolve files env flags).run.run [] with
      | (.error e, _) => .ended 1 "" ("Error: " ++ e.message)
      | (.ok c, _) => if flags.validate then .ended 0 "Configuration is valid\n" "" else .serve c

end Invocation

end SessionDispatch.CommandLine
