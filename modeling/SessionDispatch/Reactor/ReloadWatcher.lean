import SessionDispatch.Reactor.Notifier

/-!
# Reload requests

A watcher waits for requests and for the order to stop. Requests that come while a reload is running
are taken together by the next one. An `Act` is what one thread does without interruption.
-/

namespace SessionDispatch

namespace ReloadWatcher

/-- Where the watcher's loop is. What a notifier holds is reported first and read then, and a reload
that was made is counted before the next wait. -/
inductive Phase
  | polling
  | requested
  | stopping
  | starting
  | reloading
  | counting
  | ended (outcome : Except Failure Unit)
deriving Repr

inductive Act
  | request
  | stop
  | reportRequests
  | reportStop
  | stir
  | pollFailed (e : OsError)
  | readRequests
  | readStop
  | begin
  | finish
  | count
deriving DecidableEq, Repr

end ReloadWatcher

structure ReloadWatcher where
  requests : Notifier
  stops : Notifier
  reloads : Nat
  phase : ReloadWatcher.Phase
deriving Repr

namespace ReloadWatcher

/-- One read of the requests takes all of them, one read of the stops takes one. -/
def new : ReloadWatcher := ⟨⟨0, false, false⟩, ⟨0, true, false⟩, 0, .polling⟩

/-- Adds one to a notifier, if there is room. -/
def notifyOnce (n : Notifier) : Option Notifier :=
  match n.notify Notifier.stopSignal with
  | (.done (), n) => some n
  | _ => none

/-- One act, if it can happen. -/
def act (w : ReloadWatcher) : Act → Option ReloadWatcher
  | .request => (notifyOnce w.requests).map ({ w with requests := · })
  | .stop => (notifyOnce w.stops).map ({ w with stops := · })
  | .reportRequests =>
    match w.phase with
    | .polling => if w.requests.isReadable then some { w with phase := .requested } else none
    | _ => none
  | .reportStop =>
    match w.phase with
    | .polling => if w.stops.isReadable then some { w with phase := .stopping } else none
    | _ => none
  | .stir =>
    match w.phase with
    | .polling => some w
    | _ => none
  | .pollFailed e =>
    match w.phase with
    | .polling => some { w with phase := .ended (.error (.io (.os e))) }
    | _ => none
  | .readRequests =>
    match w.phase, w.requests.read with
    | .requested, (.done _, requests) => some { w with requests, phase := .starting }
    | .requested, (.refused e, requests) =>
      some { w with requests, phase := .ended (.error (.io (.os e))) }
    | _, _ => none
  | .readStop =>
    match w.phase, w.stops.wait Notifier.stopSignal with
    | .stopping, (.done true, stops) => some { w with stops, phase := .ended (.ok ()) }
    | .stopping, (.done false, stops) => some { w with stops, phase := .polling }
    | .stopping, (.refused e, stops) =>
      some { w with stops, phase := .ended (.error (.io (.os e))) }
    | _, _ => none
  | .begin =>
    match w.phase with
    | .starting => some { w with phase := .reloading }
    | _ => none
  | .finish =>
    match w.phase with
    | .reloading => some { w with phase := .counting }
    | _ => none
  | .count =>
    match w.phase with
    | .counting => some { w with reloads := w.reloads + 1, phase := .polling }
    | _ => none

/-- A run of acts; none if one of them cannot happen. -/
def run (w : ReloadWatcher) (acts : List Act) : Option ReloadWatcher := acts.foldlM act w

/-- The act that the loop does next, unless it has to wait or a reload is running. -/
def due? (w : ReloadWatcher) : Option Act :=
  match w.phase with
  | .polling =>
    if w.stops.isReadable then some .reportStop
    else if w.requests.isReadable then some .reportRequests
    else none
  | .requested => some .readRequests
  | .stopping => some .readStop
  | .starting => some .begin
  | .counting => some .count
  | .reloading | .ended _ => none

/-- Lets the loop go on until it waits, reloads or ends. A counted reload is followed by at most one
report, one read and the start of the next reload. -/
def settle (w : ReloadWatcher) : ReloadWatcher :=
  let step (w : ReloadWatcher) : ReloadWatcher := ((w.due?).bind w.act).getD w
  step (step (step (step w)))

/-- Does an act and lets the loop go on. -/
def perform (w : ReloadWatcher) (a : Act) : ReloadWatcher := ((w.act a).getD w).settle

def isReloading (w : ReloadWatcher) : Bool :=
  match w.phase with
  | .reloading => true
  | _ => false

/-- How the loop ended, if it has. -/
def outcome? (w : ReloadWatcher) : Option (Except Failure Unit) :=
  match w.phase with
  | .ended outcome => some outcome
  | _ => none

/-- Makes requests while a reload runs and then lets that reload end. -/
def batch (w : ReloadWatcher) (requests : Nat) : ReloadWatcher :=
  (requests.repeat (·.perform .request) w).perform .finish

end ReloadWatcher

end SessionDispatch
