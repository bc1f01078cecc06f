import SessionDispatch.Endpoint.Service
import SessionDispatch.Main
import SessionDispatch.Pool.Jobs
import SessionDispatch.Proofs.Pool.Drain
import SessionDispatch.Proofs.Session.Lifetime
import SessionDispatch.Proofs.Session.Newest
import SessionDispatch.Proofs.Timer.OneShot
import SessionDispatch.Queue.Blocking
import SessionDispatch.Reactor.Descriptors
import SessionDispatch.Reactor.ReloadWatcher
import SessionDispatch.Session.Dispatchers
import SessionDispatch.Session.Service
import SessionDispatch.Telemetry.Collector
import SessionDispatch.Timer.Loop
import SessionDispatch.Timer.Service
import SessionDispatch.Proofs.Queue.Wakeups
import SessionDispatch.Proofs.Session.Stages
import SessionDispatch.Proofs.Session.Routes
import SessionDispatch.Proofs.Session.Conservation
import SessionDispatch.Proofs.Session.Closing
import SessionDispatch.Proofs.Session.Draining
import SessionDispatch.Proofs.Session.Exclusion
import SessionDispatch.Proofs.Session.Renewal
import SessionDispatch.Proofs.Text.Scanning
import SessionDispatch.Proofs.Address.Hosts
import SessionDispatch.Proofs.Address.Keys
import SessionDispatch.Proofs.Session.Replies
import SessionDispatch.Proofs.Timer.Vigilance
import SessionDispatch.Proofs.Session.Overtaking
import SessionDispatch.Proofs.Settings.Layers
import SessionDispatch.Proofs.Daemon.Reloads
import SessionDispatch.Proofs.Daemon.Sizing
import SessionDispatch.Proofs.Address.Forms
import SessionDispatch.Proofs.Address.KeyTexts
import SessionDispatch.Proofs.Timer.Ordering
import SessionDispatch.Proofs.Timer.Repeating
import SessionDispatch.Proofs.Table.Lifetimes
import SessionDispatch.Proofs.Queue.Delivery
import SessionDispatch.Proofs.Pool.Growth
import SessionDispatch.Proofs.Timer.Sorting
import SessionDispatch.Proofs.Reactor.Requests
import SessionDispatch.Proofs.Endpoint.Receiving
import SessionDispatch.Proofs.Endpoint.Sending
import SessionDispatch.Proofs.Session.Counting
import SessionDispatch.Proofs.Reactor.Watching
import SessionDispatch.Reactor.Watchers
import SessionDispatch.Proofs.Reactor.Edges
import SessionDispatch.Proofs.Telemetry.Gauges
import SessionDispatch.Proofs.Settings.Rendering
import SessionDispatch.Daemon.AddressSpace
import SessionDispatch.Proofs.Timer.Repose
import SessionDispatch.Proofs.Pool.Stranding
