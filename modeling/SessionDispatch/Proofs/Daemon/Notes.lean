import SessionDispatch.Proofs.Daemon.Steps

/-!
# What is noted of a daemon

Of a run it is noted which records were accepted, which were dispatched, and how loops ended. All
that an act is to the pool and to the loops follows from whether it ends one: it goes on, ends a
loop, hands expiries over, carries one out, or is a step of the shutdown.
-/

namespace SessionDispatch.Daemon

abbrev Ending := Task × Pool.Outcome (Except Failure Unit)

inductive Note
  | accepted (family : Family) (p : Packet)
  | dispatched (family : Family) (n : Nat) (p : Packet) (panic : Option String)
  | ended (e : Ending)

namespace Note

def ending? : Note → Option Ending
  | dispatched family n _ (some text) => some (.dispatcher family n, .error text)
  | ended e => some e
  | _ => none

def accepted? (family : Family) : Note → Option Packet
  | accepted f p => if f = family then some p else none
  | _ => none

def dispatched? (family : Family) : Note → Option Packet
  | dispatched f _ p _ => if f = family then some p else none
  | _ => none

end Note

def note? (d : Daemon) : Act → Option Note
  | .receive family _ p =>
      if (d.inbound? family).any (!·.closed) then some (.accepted family p) else none
  | .dispatch family n panic => (d.hand? (.dispatcher family n)).map (.dispatched family n · panic)
  | .transmit family id (.failed reason) => do
    let e ← (d.endpoints family).find? (·.id = id)
    let p ← d.hand? (.sender family id)
    if p.peer.family = family then
      some (.ended (.sender family id, .ok (.error (Sender.sendFailure e p reason))))
    else none
  | .fail t f => some (.ended (t, .ok (.error f)))
  | .finish t => some (.ended (t, .ok (.ok ())))
  | _ => none

def notes (h : Handler) (d : Daemon) (acts : List Act) : List Note :=
  Run.observe (act h) note? d acts

def endings (ns : List Note) : List Ending := ns.filterMap Note.ending?

/-- The records of a family that its inbound queue took. -/
def accepted (ns : List Note) (family : Family) : List Packet :=
  ns.filterMap (Note.accepted? family)

/-- The records of a family that were given to the handler. -/
def dispatched (ns : List Note) (family : Family) : List Packet :=
  ns.filterMap (Note.dispatched? family)

theorem filterMap_note {β : Type} (f : Note → Option β) (ns : List Note) (n : Option Note) :
    (ns ++ n.toList).filterMap f = ns.filterMap f ++ (n.bind f).toList := by
  rw [List.filterMap_append]
  cases n with
  | none => rfl
  | some n => cases hn : f n <;> simp [hn]

theorem endings_concat (ns : List Note) (n : Option Note) :
    endings (ns ++ n.toList) = endings ns ++ (n.bind Note.ending?).toList := filterMap_note ..

theorem accepted_concat (ns : List Note) (n : Option Note) (family : Family) :
    accepted (ns ++ n.toList) family =
      accepted ns family ++ (n.bind (Note.accepted? family)).toList :=
  filterMap_note ..

theorem dispatched_concat (ns : List Note) (n : Option Note) (family : Family) :
    dispatched (ns ++ n.toList) family =
      dispatched ns family ++ (n.bind (Note.dispatched? family)).toList :=
  filterMap_note ..

/-! ## How far a shutdown has come -/

/-- How far a shutdown has come with the tasks and the pool. -/
structure Standing where
  joined : Nat
  failed : List (Task × Failure)
  threads : Option Nat
  down : Bool

def Phase.standing : Phase → Standing
  | .running | .stopping _ => ⟨0, [], none, false⟩
  | .joining joined failed => ⟨joined, failed, none, false⟩
  | .draining joined failed threads => ⟨joined, failed, some threads, false⟩
  | .down r => ⟨r.tasksJoined, r.failed, some r.threadsJoined, true⟩

theorem standing_ofOrders (left : List Order) :
    (Phase.ofOrders left).standing = Phase.running.standing := by
  cases left <;> rfl

theorem standing_of_telling {phase : Phase} {left : List Order}
    (hphase : phase = .running ∨ ∃ o, phase = .stopping (o :: left)) :
    (Phase.ofOrders left).standing = phase.standing := by
  rw [standing_ofOrders]
  rcases hphase with rfl | ⟨o, rfl⟩ <;> rfl

/-- What an act is to the pool, the loops and the handler, with the loop that it ends. -/
inductive Course (d d' : Daemon) (a : Act) : Option Ending → Prop
  | goesOn (hpool : d'.pool = d.pool) (hexpiries : d'.expiries = d.expiries)
      (hphase : d'.phase = d.phase)
      (hreleased : d'.released = d.released) : Course d d' a none
  | tells (left : List Order) (hpool : d'.pool = d.pool) (hexpiries : d'.expiries = d.expiries)
      (hbefore : d.phase = .running ∨ ∃ o, d.phase = .stopping (o :: left))
        (hafter : d'.phase = .ofOrders left)
      (hreleased : d'.released = d.released) : Course d d' a none
  | ends (t : Task) (outcome : Pool.Outcome (Except Failure Unit)) (hrunning : d.isRunning t = true)
      (hpool : d'.pool = (d.finish t outcome).pool) (hexpiries : d'.expiries = d.expiries)
      (hphase : d'.phase = d.phase) (hreleased : d'.released = d.released) : Course d d' a
        (some (t, outcome))
  | passes (hrunning : d.isRunning .timer = true) (hstopped : d.timer.stopped = false)
      (h : d' = d.pass) :
      Course d d' a none
  | expires (job : Nat) (hbusy : d.isBusyWith job = true) (hjob : job ∈ d.expiries.map (·.1))
      (hpool : d'.pool = (d.complete job (.ok (.ok ()))).pool)
      (hexpiries : d'.expiries = d.expiries.filter (·.1 ≠ job)) (hphase : d'.phase = d.phase)
      (hreleased : d'.released = d.released) : Course d d' a none
  | joins (joined : Nat) (failed : List (Task × Failure)) (t : Task) (job : Nat)
      (ending : Except Failure (Except Failure Unit)) (hphase : d.phase = .joining joined failed)
      (htask : d.tasks[joined]? = some (t, job)) (hending : (d.pool.take job).1 = some ending)
      (h : d' = { d with
        pool := (d.pool.take job).2
        phase := .joining (joined + 1)
          (failed ++ ((failureOf ending).map (t, ·)).toList) }) : Course d d' a none
  | closes (joined : Nat) (failed : List (Task × Failure)) (hact : a = .closePool)
      (hphase : d.phase = .joining joined failed)
      (hall : joined = d.tasks.length) (h : d' = d.closePool joined failed) : Course d d' a none
  | concludes (joined : Nat) (failed : List (Task × Failure)) (threads : Nat) (hact : a = .conclude)
      (hphase : d.phase = .draining joined failed threads) (hgone : d.pool.workers = [])
      (h : d' = d.conclude joined failed threads) : Course d d' a none

/-- How the phase of a daemon goes on. -/
inductive Phase.Turn : Phase → Phase → Prop
  | stays (phase : Phase) : Turn phase phase
  | tells {phase : Phase} (left : List Order)
      (hbefore : phase = .running ∨ ∃ o, phase = .stopping (o :: left)) :
      Turn phase (.ofOrders left)
  | joins (joined : Nat) (failed failed' : List (Task × Failure)) :
      Turn (.joining joined failed) (.joining (joined + 1) failed')
  | closes (joined : Nat) (failed : List (Task × Failure)) (threads : Nat) :
      Turn (.joining joined failed) (.draining joined failed threads)
  | concludes (joined : Nat) (failed : List (Task × Failure)) (threads dropped : Nat) :
      Turn (.draining joined failed threads) (.down ⟨joined, failed, threads, dropped⟩)

variable {h : Handler} {d d' : Daemon}

theorem Course.turn {a : Act} {e : Option Ending} (hc : Course d d' a e) :
    Phase.Turn d.phase d'.phase := by
  cases hc with
  | goesOn hpool hexpiries hphase hreleased => exact hphase ▸ .stays d.phase
  | tells left hpool hexpiries hbefore hafter hreleased => exact hafter ▸ .tells left hbefore
  | ends t outcome hrunning hpool hexpiries hphase hreleased => exact hphase ▸ .stays d.phase
  | passes hrunning hstopped heq =>
      have hphase : d'.phase = d.phase := by rw [heq, pass_eq]
      exact hphase ▸ .stays d.phase
  | expires job hbusy hjob hpool hexpiries hphase hreleased => exact hphase ▸ .stays d.phase
  | joins joined failed t job ending hphase htask hending heq =>
      exact heq ▸ hphase ▸ .joins joined failed _
  | closes joined failed hact hphase hall heq => exact heq ▸ hphase ▸ .closes joined failed _
  | concludes joined failed threads hact hphase hgone heq =>
      exact heq ▸ hphase ▸ .concludes joined failed threads _

/-- What becomes of a record that a send loop has taken, and what is noted of it. -/
theorem act_transmit_noted {family : Family} {id : Nat} {delivery : Delivery}
    (ha : d.act h (.transmit family id delivery) = some d') :
    d.isRunning (.sender family id) = true ∧ ∃ p, d.hand? (.sender family id) = some p ∧
      ((∃ f, d.note? (.transmit family id delivery) =
          some (.ended (.sender family id, .ok (.error f))) ∧
          d' = ((d.letGo (.sender family id)).report [.sendError]).finish (.sender family id)
              (.ok (.error f))) ∨
        d.note? (.transmit family id delivery) = none ∧
          (d' = d ∨ ∃ events, d' = (d.letGo (.sender family id)).report events)) := by
  obtain ⟨hrunning, e, p, he, hp, hcases⟩ := act_transmit ha
  have hnote : ∀ reason, d.note? (.transmit family id (.failed reason)) =
      if p.peer.family = family then
        some (.ended (.sender family id, .ok (.error (Sender.sendFailure e p reason))))
      else none := by
    intro reason
    rw [note?, he, hp]
    rfl
  refine ⟨hrunning, p, hp, ?_⟩
  rcases hcases with ⟨reason, hfamily, rfl, rfl⟩ | ⟨-, rfl, rfl⟩ | ⟨hsent, events, rfl⟩
  · exact .inl ⟨_, (hnote reason).trans (if_pos hfamily), rfl⟩
  · exact .inr ⟨rfl, .inl rfl⟩
  · refine .inr ⟨?_, .inr ⟨events, rfl⟩⟩
    cases delivery with
    | sent => rfl
    | interrupted => rfl
    | failed reason => exact (hnote reason).trans (if_neg fun hfamily => nomatch hsent hfamily)

/-- The loop that is being ended ends in a state that differs in other things only. -/
theorem Course.of_finish {a : Act} {e : Daemon} {t : Task}
    {outcome : Pool.Outcome (Except Failure Unit)} (hrunning : d.isRunning t = true)
    (hpool : e.pool = d.pool) (htasks : e.tasks = d.tasks) (hexpiries : e.expiries = d.expiries)
    (hphase : e.phase = d.phase) (hreleased : e.released = d.released) :
    Course d (e.finish t outcome) a (some (t, outcome)) := by
  have hsame := finish_eq e t outcome
  apply Course.ends t outcome hrunning (finish_pool_congr hpool htasks t outcome)
  · rw [hsame]
    exact hexpiries
  · rw [hsame]
    exact hphase
  · rw [hsame]
    exact hreleased

/-- So with an expiry that is carried out. -/
theorem Course.of_complete {a : Act} {e : Daemon} {job : Nat} (hbusy : d.isBusyWith job = true)
    (hjob : job ∈ d.expiries.map (·.1)) (hpool : e.pool = d.pool)
    (hexpiries : e.expiries = d.expiries.filter (·.1 ≠ job)) (hphase : e.phase = d.phase)
    (hreleased : e.released = d.released) : Course d (e.complete job (.ok (.ok ()))) a none := by
  have hsame := complete_eq e job (.ok (.ok ()))
  apply Course.expires job hbusy hjob (complete_pool_congr hpool job _)
  · rw [hsame]
    exact hexpiries
  · rw [hsame]
    exact hphase
  · rw [hsame]
    exact hreleased

theorem act_course {a : Act} (ha : d.act h a = some d') :
    Course d d' a ((d.note? a).bind Note.ending?) := by
  cases a with
  | receive family id p =>
      obtain ⟨-, rfl⟩ := act_receive ha
      have hnone : (d.note? (.receive family id p)).bind Note.ending? = none := by
        rw [note?]
        split_ifs <;> rfl
      rw [hnone]
      exact .goesOn rfl rfl rfl rfl
  | take t =>
      obtain ⟨-, -, family, m, p, -, ⟨-, -, rfl⟩ | ⟨-, -, rfl⟩⟩ := act_take ha
      · exact .goesOn rfl rfl rfl rfl
      · exact .goesOn rfl rfl rfl rfl
  | dispatch family n panic =>
      obtain ⟨hrunning, m, p, h', r, done, -, hp, -, -, hdone, rfl⟩ := act_dispatch ha
      rw [note?, hp]
      cases panic with
      | none =>
          subst hdone
          exact .goesOn rfl rfl rfl rfl
      | some text =>
          subst hdone
          exact .of_finish hrunning rfl rfl rfl rfl rfl
  | transmit family id delivery =>
      obtain ⟨hrunning, p, -, ⟨f, hnote, rfl⟩ | ⟨hnote, rfl | ⟨events, rfl⟩⟩⟩ :=
        act_transmit_noted ha
      · rw [hnote]
        exact .of_finish hrunning rfl rfl rfl rfl rfl
      · rw [hnote]
        exact .goesOn rfl rfl rfl rfl
      · rw [hnote]
        exact .goesOn rfl rfl rfl rfl
  | fail t f =>
      obtain ⟨hrunning, -, rfl⟩ := act_fail ha
      exact .of_finish hrunning rfl rfl rfl rfl rfl
  | tick span =>
      obtain rfl := Option.some.inj ha
      exact .goesOn rfl rfl rfl rfl
  | pass =>
      obtain ⟨hrunning, hstopped, rfl⟩ := act_pass ha
      exact .passes hrunning hstopped rfl
  | expire job =>
      obtain ⟨hbusy, e, he, rfl⟩ := act_expire ha
      obtain ⟨l, r, hlr, -⟩ := List.lookup_eq_some_iff.mp he
      have hjob : job ∈ d.expiries.map (·.1) := by
        rw [hlr]
        simp
      exact .of_complete hbusy hjob rfl rfl rfl rfl
  | reload files env =>
      obtain ⟨-, rfl⟩ := act_reload ha
      unfold reload
      cases d.reloaded? files env <;> exact .goesOn rfl rfl rfl rfl
  | stop =>
      obtain ⟨hphase, rfl⟩ := act_stop ha
      exact .tells d.orders rfl rfl (.inl hphase) rfl rfl
  | order =>
      obtain ⟨o, left, hphase, rfl⟩ := act_order ha
      cases o <;> exact .tells left rfl rfl (.inr ⟨_, hphase⟩) rfl rfl
  | finish t =>
      obtain ⟨hrunning, -, rfl⟩ := act_finish ha
      exact .of_finish hrunning rfl rfl rfl rfl rfl
  | join =>
      obtain ⟨joined, failed, t, job, ending, hphase, htask, hending, heq⟩ := act_join ha
      exact .joins joined failed t job ending hphase htask hending heq
  | closePool =>
      obtain ⟨joined, failed, hphase, hall, heq⟩ := act_closePool ha
      exact .closes joined failed rfl hphase hall heq
  | conclude =>
      obtain ⟨joined, failed, threads, hphase, hgone, heq⟩ := act_conclude ha
      exact .concludes joined failed threads rfl hphase hgone heq

end SessionDispatch.Daemon
