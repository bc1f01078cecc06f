import SessionDispatch.Settings.Sections
import SessionDispatch.Telemetry.Metrics

namespace SessionDispatch

/-- The counters of a process. Events that are reported before collecting has started are lost. -/
structure Collector where
  collecting : Bool := false
  snapshot : Snapshot := {}
deriving DecidableEq, Repr

namespace Collector

inductive StartError
  | alreadyStarted
deriving DecidableEq, Repr

def StartError.message : StartError → String
  | alreadyStarted => "Metrics sender already initialized"

/-- Starts collecting if the settings ask for it, which can be done once. -/
def start (c : Collector) (s : TelemetrySettings) : Except StartError Collector :=
  if !s.enableMetrics then .ok c
  else if c.collecting then .error .alreadyStarted
  else .ok { c with collecting := true }

def record (c : Collector) (events : List Metric) : Collector :=
  if c.collecting then { c with snapshot := c.snapshot.drain events } else c

end Collector

end SessionDispatch
