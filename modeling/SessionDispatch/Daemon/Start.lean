import SessionDispatch.Daemon.Course
import SessionDispatch.Settings.Validation

/-!
# Starting a daemon

The timer is started first, then for every family its dispatchers and the loops of its endpoints,
and the reload watcher last. A family that gets no endpoint ends the start, and what runs already is
shut down.
-/

namespace SessionDispatch.Daemon

/-- Why a daemon cannot be started. -/
inductive StartError
  | noFamily
  | unbound (family : Family) (host : String) (port : UInt16)
deriving DecidableEq, Repr

namespace StartError

def message : StartError → String
  | noFamily => "no address family enabled"
  | unbound family host port => s!"no {family} endpoint could be bound on {host}:{port}"

end StartError

/-- A start that goes on, with the number of sockets that were asked for. -/
structure Launch where
  daemon : Daemon
  sockets : Nat

namespace Launch

/-- Binds an endpoint and starts its loops; without a socket nothing is started. -/
def startEndpoint (network : Network) (s : Settings) (family : Family) (l : Launch) (id : Nat) :
    Launch :=
  let sockets := l.sockets + 1
  match Endpoint.bind network l.sockets id family (s.network.host family) s.network.port
      s.netio.recvBufferSize.toNat with
  | .error _ => { l with sockets }
  | .ok e =>
    let d := l.daemon.addEndpoint family e
    ⟨((d.spawn (.receiver family id)).report [.endpointStarted]).spawn (.sender family id), sockets⟩

/-- Starts what serves a family. The queues are there before the endpoints. -/
def startFamily (network : Network) (s : Settings) (l : Launch) (family : Family) : Launch :=
  let manager := SessionManager.new family s.dispatch.queueOrder s.dispatch.policy
  let d := { l.daemon with services := l.daemon.services ++ [{ manager }] }
  let d := (List.range s.dispatch.dispatchersPerFamily.toNat).foldl
    (fun d n => d.spawn (.dispatcher family n)) d
  (List.range s.netio.endpointsPerFamily.toNat).foldl (startEndpoint network s family)
    { l with daemon := d }

/-- Starts the families one after the other, up to the first that gets no endpoint. -/
def startFamilies (network : Network) (s : Settings) :
    List Family → Launch → Except (Family × Daemon) Daemon
  | [], l => .ok l.daemon
  | family :: rest, l =>
    let l := l.startFamily network s family
    if l.daemon.endpoints family = [] then .error (family, l.daemon)
    else startFamilies network s rest l

end Launch

/-- A daemon whose pool has a worker for every loop and those for short tasks besides. -/
def new (c : Configuration) (now : Instant) : Daemon where
  configuration := c
  pool := .new (c.settings.runtime.poolThreads + c.settings.longRunning).toNat
    c.settings.runtime.growthThreshold.toNat
  now

/-- Starts a daemon. If that fails after something was started, what is left is a daemon that
is down. -/
def start (h : Handler) (network : Network) (c : Configuration) (now : Instant) :
    Except (StartError × Option Daemon) Daemon :=
  let s := c.settings
  if s.network.families = [] then .error (.noFamily, none)
  else
    match Launch.startFamilies network s s.network.families ⟨(new c now).spawn .timer, 0⟩ with
    | .error (family, d) =>
      .error (.unbound family (s.network.host family) s.network.port, some (d.shutdown h network))
    | .ok d => .ok (d.spawn .reloadWatcher)

end SessionDispatch.Daemon
