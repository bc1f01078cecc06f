import SessionDispatch.Daemon.Basic

/-!
# Reloads

A reload reads the configuration again and applies what can change while the daemon runs: how long
the sessions of every family live.
-/

namespace SessionDispatch.Daemon

/-- The configuration as file, environment and the kept flags make it now, if the daemon has a file
and the configuration is valid. -/
def reloaded? (d : Daemon) (files : Files) (env : Environment) : Option Configuration := do
  let path ← d.configuration.source
  ((Configuration.load files path env d.configuration.overrides).run.run []).1.toOption

/-- Applies a configuration to the families that are served. -/
def apply (d : Daemon) (c : Configuration) : Daemon :=
  d.modifyManagers fun m => { m with policy := c.settings.dispatch.policy }

/-- Answers a request for a reload. Without a valid configuration everything stays as it is. -/
def reload (d : Daemon) (files : Files) (env : Environment) : Daemon :=
  let d := (d.reloaded? files env).elim d d.apply
  { d with reloads := d.reloads + 1 }

end SessionDispatch.Daemon
