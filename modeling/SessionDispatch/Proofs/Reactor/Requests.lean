import Mathlib
import SessionDispatch.Proofs.Run
import SessionDispatch.Reactor.ReloadWatcher

/-!
# No request for a reload is lost

One read takes all requests that are pending, and one reload follows it before the next read. A
request that comes after the read stays pending, so whenever nothing is pending, every request was
made before the last read, and before the reload that this read led to. The first order to stop that
is read ends the loop, however many there are.
-/

namespace SessionDispatch.ReloadWatcher

variable {w w' : ReloadWatcher} {a : Act} {acts : List Act} {n n' : Notifier}

/-! ## What one act does -/

theorem eq_of_notifyOnce (h : notifyOnce n = some n') :
    n' = { n with counter := n.counter + 1 } := by
  unfold notifyOnce at h
  split at h
  case h_1 m hm =>
      obtain rfl := Option.some.inj h
      exact Notifier.eq_of_notify hm
  case h_2 => cases h

/-- The notifiers are of their kinds, and what was reported is still there to be read. -/
structure Sound (w : ReloadWatcher) : Prop where
  requests : w.requests.semaphore = false ∧ w.requests.nonblocking = false
  stops : w.stops.semaphore = true ∧ w.stops.nonblocking = false
  reported : w.phase = .requested → 0 < w.requests.counter
  told : w.phase = .stopping → 0 < w.stops.counter

/-- The ways in which an act can happen. No read has to wait, and none yields anything but what it
is read for. -/
inductive Happens (w : ReloadWatcher) : Act → ReloadWatcher → Prop
  | request : Happens w .request { w with requests.counter := w.requests.counter + 1 }
  | stop : Happens w .stop { w with stops.counter := w.stops.counter + 1 }
  | reportRequests (hp : w.phase = .polling) (hr : 0 < w.requests.counter) :
      Happens w .reportRequests { w with phase := .requested }
  | reportStop (hp : w.phase = .polling) (hs : 0 < w.stops.counter) :
      Happens w .reportStop { w with phase := .stopping }
  | stir (hp : w.phase = .polling) : Happens w .stir w
  | pollFailed {e : OsError} (hp : w.phase = .polling) :
      Happens w (.pollFailed e) { w with phase := .ended (.error (.io (.os e))) }
  | readRequests (hp : w.phase = .requested) (hr : 0 < w.requests.counter) :
      Happens w .readRequests { w with requests.counter := 0, phase := .starting }
  | readStop (hp : w.phase = .stopping) (hs : 0 < w.stops.counter) :
      Happens w .readStop { w with stops.counter := w.stops.counter - 1, phase := .ended (.ok ()) }
  | begin (hp : w.phase = .starting) : Happens w .begin { w with phase := .reloading }
  | finish (hp : w.phase = .reloading) : Happens w .finish { w with phase := .counting }
  | count (hp : w.phase = .counting) :
      Happens w .count { w with reloads := w.reloads + 1, phase := .polling }

theorem Sound.happens (hw : w.Sound) (ha : w.act a = some w') : Happens w a w' := by
  cases a with
  | request =>
      obtain ⟨n, hn, rfl⟩ := Option.map_eq_some_iff.mp ha
      rw [eq_of_notifyOnce hn]
      exact .request
  | stop =>
      obtain ⟨n, hn, rfl⟩ := Option.map_eq_some_iff.mp ha
      rw [eq_of_notifyOnce hn]
      exact .stop
  | readRequests =>
      cases hp : w.phase with
      | requested =>
          have hr := hw.reported hp
          simp only [act, hp, Notifier.read_of_counter hw.requests.1 hr, Option.some.injEq] at ha
          subst ha
          exact .readRequests hp hr
      | _ => simp [act, hp] at ha
  | readStop =>
      cases hp : w.phase with
      | stopping =>
          have hs := hw.told hp
          simp only [act, hp, Notifier.wait_of_semaphore hw.stops.1 hs, Option.some.injEq] at ha
          subst ha
          exact .readStop hp hs
      | _ => simp [act, hp] at ha
  | reportRequests =>
      cases hp : w.phase with
      | polling =>
          simp only [act, hp] at ha
          split_ifs at ha with hr
          cases ha
          exact .reportRequests hp (of_decide_eq_true hr)
      | _ => simp [act, hp] at ha
  | reportStop =>
      cases hp : w.phase with
      | polling =>
          simp only [act, hp] at ha
          split_ifs at ha with hs
          cases ha
          exact .reportStop hp (of_decide_eq_true hs)
      | _ => simp [act, hp] at ha
  | stir =>
      cases hp : w.phase <;> simp only [act, hp] at ha <;> cases ha
      exact .stir hp
  | pollFailed e =>
      cases hp : w.phase <;> simp only [act, hp] at ha <;> cases ha
      exact .pollFailed hp
  | begin =>
      cases hp : w.phase <;> simp only [act, hp] at ha <;> cases ha
      exact .begin hp
  | finish =>
      cases hp : w.phase <;> simp only [act, hp] at ha <;> cases ha
      exact .finish hp
  | count =>
      cases hp : w.phase <;> simp only [act, hp] at ha <;> cases ha
      exact .count hp

theorem sound_new : new.Sound := ⟨⟨rfl, rfl⟩, ⟨rfl, rfl⟩, nofun, nofun⟩

theorem Sound.act (hw : w.Sound) (ha : w.act a = some w') : w'.Sound := by
  cases hw.happens ha with
  | request => exact ⟨hw.requests, hw.stops, fun _ => Nat.succ_pos _, hw.told⟩
  | stop => exact ⟨hw.requests, hw.stops, hw.reported, fun _ => Nat.succ_pos _⟩
  | reportRequests _ hr => exact ⟨hw.requests, hw.stops, fun _ => hr, nofun⟩
  | reportStop _ hs => exact ⟨hw.requests, hw.stops, nofun, fun _ => hs⟩
  | stir _ => exact hw
  | pollFailed _ | readRequests _ _ | readStop _ _ | begin _ | finish _ | count _ =>
      exact ⟨hw.requests, hw.stops, nofun, nofun⟩

theorem Sound.run (hw : w.Sound) (hr : w.run acts = some w') : w'.Sound :=
  Run.invariant Sound (fun _ _ _ hw ha => hw.act ha) hw hr

/-! ## What a run comes to -/

def reading? (w : ReloadWatcher) : Act → Option Nat
  | .readRequests =>
    match w.requests.read with
    | (.done n, _) => some n
    | _ => none
  | _ => none

def readings : ReloadWatcher → List Act → List Nat := Run.observe act reading?

/-- What is done about requests: they are read, and a reload starts, ends and is counted. -/
def round : List Act := [.readRequests, .begin, .finish, .count]

/-- How far the round has come that the loop is in. -/
def Phase.underway : Phase → List Act
  | .starting => [.readRequests]
  | .reloading => [.readRequests, .begin]
  | .counting => [.readRequests, .begin, .finish]
  | .polling | .requested | .stopping | .ended _ => []

def Act.isStep : Act → Bool
  | .request | .stop | .stir | .pollFailed _ => false
  | .reportRequests | .reportStop | .readRequests | .readStop | .begin | .finish | .count => true

structure Faithful (acts : List Act) (w : ReloadWatcher) : Prop where
  requests : acts.count .request = (readings new acts).sum + w.requests.counter
  reading : ∀ n ∈ readings new acts, 0 < n
  rounds : acts.filter (· ∈ round) = (List.replicate w.reloads round).flatten ++ w.phase.underway
  answered : w.requests.counter = 0 → ∀ before after, acts = before ++ .request :: after →
    .readRequests ∈ after ∧ (w.phase ≠ .starting → .begin ∈ after)
  stops : acts.count .stop = acts.count .readStop + w.stops.counter
  ended : w.phase = .ended (.ok ()) ↔ .readStop ∈ acts
  last : ∀ before after, acts = before ++ .readStop :: after → ∀ a ∈ after, a = .request ∨ a = .stop

theorem happens_of_ended {outcome : Except Failure Unit} (hp : w.phase = .ended outcome)
    (h : Happens w a w') :
    (a = .request ∨ a = .stop) ∧ w'.phase = .ended outcome := by
  cases h with
  | request => exact ⟨.inl rfl, hp⟩
  | stop => exact ⟨.inr rfl, hp⟩
  | reportRequests h _ | reportStop h _ | stir h | pollFailed h | readRequests h _ | readStop h _
  | begin h | finish h | count h => cases hp.symm.trans h

/-- A round goes on by one act, or ends and is counted. -/
theorem underway_happens (h : Happens w a w') :
    (a ∉ round ∧ w'.reloads = w.reloads ∧ w'.phase.underway = w.phase.underway) ∨
      (a ∈ round ∧ w'.reloads = w.reloads ∧ w'.phase.underway = w.phase.underway ++ [a]) ∨
        (a ∈ round ∧ w'.reloads = w.reloads + 1 ∧ w.phase.underway ++ [a] = round ∧
          w'.phase.underway = []) := by
  cases h with
  | request | stop | stir _ => exact .inl ⟨by decide, rfl, rfl⟩
  | reportRequests hp _ | reportStop hp _ =>
      rw [hp]
      exact .inl ⟨by decide, rfl, rfl⟩
  | pollFailed hp =>
      rw [hp]
      exact .inl ⟨by simp [round], rfl, rfl⟩
  | readStop hp _ =>
      rw [hp]
      exact .inl ⟨by decide, rfl, rfl⟩
  | readRequests hp _ | begin hp | finish hp =>
      rw [hp]
      exact .inr (.inl ⟨by decide, rfl, rfl⟩)
  | count hp =>
      rw [hp]
      exact .inr (.inr ⟨by decide, rfl, rfl, rfl⟩)

theorem rounds_concat
    (hr : acts.filter (· ∈ round) = (List.replicate w.reloads round).flatten ++ w.phase.underway)
    (h : Happens w a w') :
    (acts ++ [a]).filter (· ∈ round) =
    (List.replicate w'.reloads round).flatten ++ w'.phase.underway := by
  rw [List.filter_append, hr]
  obtain ⟨ha, hn, hu⟩ | ⟨ha, hn, hu⟩ | ⟨ha, hn, hu, hu'⟩ := underway_happens h
  · simp [ha, hn, hu]
  · simp [ha, hn, hu]
  · rw [hn, hu', List.replicate_succ', List.flatten_append, ← hu]
    simp

/-- A request is pending until it is read. -/
theorem requests_happens (hw : w.Sound) (h : Happens w a w') :
    [a].count .request + w.requests.counter = (reading? w a).toList.sum + w'.requests.counter := by
  cases h with
  | request => exact (Nat.add_comm _ _).trans (Nat.zero_add _).symm
  | readRequests _ hr =>
      rw [reading?, Notifier.read_of_counter hw.requests.1 hr]
      simp
  | stop | reportRequests _ _ | reportStop _ _ | stir _ | pollFailed _ | readStop _ _ | begin _
  | finish _ | count _ =>
      simp [reading?]

theorem reading_happens (hw : w.Sound) (h : Happens w a w') :
    ∀ n ∈ (reading? w a).toList, 0 < n := by
  cases h with
  | readRequests _ hr =>
      rw [reading?, Notifier.read_of_counter hw.requests.1 hr]
      simpa using hr
  | request | stop | reportRequests _ _ | reportStop _ _ | stir _ | pollFailed _ | readStop _ _
  | begin _ | finish _ | count _ => simp [reading?]

theorem stops_happens (h : Happens w a w') :
    [a].count .stop + w.stops.counter = [a].count .readStop + w'.stops.counter := by
  cases h with
  | stop => exact (Nat.add_comm _ _).trans (Nat.zero_add _).symm
  | readStop _ hs => exact (Nat.zero_add _).trans (Nat.add_sub_cancel' hs).symm
  | request | reportRequests _ _ | reportStop _ _ | stir _ | pollFailed _ | readRequests _ _
  | begin _ | finish _ | count _ => simp

theorem ended_happens (h : Happens w a w') :
    w'.phase = .ended (.ok ()) ↔ w.phase = .ended (.ok ()) ∨ a = .readStop := by
  cases h with
  | readStop _ _ => simp
  | request | stop | stir _ => simp
  | reportRequests hp _ | reportStop hp _ | pollFailed hp | readRequests hp _ | begin hp
  | finish hp | count hp =>
      simp [hp]

/-- An act after which nothing is pending is no request, and leaves what was pending as it is unless
it reads it. -/
theorem idle_happens (h : Happens w a w') (hz : w'.requests.counter = 0) :
    a ≠ .request ∧ (a ≠ .readRequests → w.requests.counter = 0) ∧
      (w'.phase ≠ .starting → a ≠ .begin → w.phase ≠ .starting ∧ a ≠ .readRequests) := by
  cases h with
  | request => exact absurd hz (Nat.succ_ne_zero _)
  | readRequests _ _ => exact ⟨nofun, fun h => absurd rfl h, fun h => absurd rfl h⟩
  | begin _ => exact ⟨nofun, fun _ => hz, fun _ h => absurd rfl h⟩
  | stop | stir _ => exact ⟨nofun, fun _ => hz, fun h _ => ⟨h, nofun⟩⟩
  | reportRequests hp _ | reportStop hp _ | pollFailed hp | readStop hp _ | finish hp | count hp =>
      rw [hp]
      exact ⟨nofun, fun _ => hz, fun _ _ => ⟨nofun, nofun⟩⟩

theorem Faithful.concat (hf : Faithful acts w) (hw : w.Sound) (hr : new.run acts = some w)
    (ha : w.act a = some w') :
    Faithful (acts ++ [a]) w' := by
  have h := hw.happens ha
  have hreadings : readings new (acts ++ [a]) = readings new acts ++ (reading? w a).toList :=
    Run.observe_concat reading? hr a
  constructor
  · rw [hreadings, List.count_append, List.sum_append, hf.requests]
    have hone := requests_happens hw h
    omega
  · rw [hreadings]
    exact List.forall_mem_append.mpr ⟨hf.reading, reading_happens hw h⟩
  · exact rounds_concat hf.rounds h
  · intro hz before after hsplit
    obtain ⟨hne, hpending, hstart⟩ := idle_happens h hz
    obtain ⟨rest, rfl, hacts⟩ | ⟨-, hreq, -⟩ := Run.concat_eq_append_cons.mp hsplit
    · rw [List.mem_append, List.mem_append, List.mem_singleton, List.mem_singleton]
      by_cases hread : .readRequests = a
      · refine ⟨.inr hread, fun hp => ?_⟩
        by_contra hbegin
        rw [not_or] at hbegin
        exact (hstart hp (Ne.symm hbegin.2)).2 hread.symm
      · obtain ⟨hin, hbegun⟩ := hf.answered (hpending (Ne.symm hread)) before rest hacts
        refine ⟨.inl hin, fun hp => ?_⟩
        by_cases hbegin : .begin = a
        · exact .inr hbegin
        · exact .inl (hbegun (hstart hp (Ne.symm hbegin)).1)
    · exact absurd hreq.symm hne
  · rw [List.count_append, List.count_append, hf.stops]
    have hone := stops_happens h
    omega
  · rw [ended_happens h, hf.ended, List.mem_append, List.mem_singleton, eq_comm (a := a)]
  · intro before after hsplit b hb
    obtain ⟨rest, rfl, hacts⟩ | ⟨-, -, rfl⟩ := Run.concat_eq_append_cons.mp hsplit
    · rcases List.mem_append.mp hb with hb | hb
      · exact hf.last before rest hacts b hb
      · obtain rfl := List.mem_singleton.mp hb
        exact (happens_of_ended (hf.ended.mpr (by simp [hacts])) h).1
    · cases hb

theorem faithful_run (hr : new.run acts = some w) : w.Sound ∧ Faithful acts w := by
  induction acts using List.reverseRecOn generalizing w with
  | nil =>
      obtain rfl := Option.some.inj hr
      refine ⟨sound_new, rfl, nofun, rfl, fun _ before after h => ?_, rfl, ⟨nofun, nofun⟩,
        fun before after h => ?_⟩
      · simp at h
      · simp at h
  | append_singleton acts a ih =>
      obtain ⟨u, hu, ha⟩ := Run.foldlM_concat_eq_some hr
      obtain ⟨hs, hf⟩ := ih hu
      exact ⟨hs.act ha, hf.concat hs hu ha⟩

/-- Every reload that has ended is counted, but for one that has ended just now. -/
theorem Faithful.count_finish (hf : Faithful acts w) :
    acts.count .finish = w.reloads + w.phase.underway.count .finish := by
  have hround : round.count .finish = 1 := rfl
  rw [← List.count_filter (p := (· ∈ round)) (by decide), hf.rounds, List.count_append,
    List.count_flatten, List.map_replicate, List.sum_replicate, hround, smul_eq_mul, Nat.mul_one]

/-! ## The loop gets on -/

/-- How many steps the loop takes at most without a further request. Two steps are for the order to
stop, five for requests that are pending. -/
def effort (w : ReloadWatcher) : Nat :=
  match w.phase with
  | .ended _ => 0
  | .stopping => 1
  | .requested => 6
  | .polling => 2 + if 0 < w.requests.counter then 5 else 0
  | .counting => 3 + if 0 < w.requests.counter then 5 else 0
  | .reloading => 4 + if 0 < w.requests.counter then 5 else 0
  | .starting => 5 + if 0 < w.requests.counter then 5 else 0

theorem effort_happens (h : Happens w a w') :
    (if a.isStep then 1 else 0) + w'.effort ≤ w.effort + 5 * [a].count .request := by
  cases h with
  | request =>
      have hcount : [Act.request].count .request = 1 := rfl
      rw [hcount]
      simp only [effort, Act.isStep, Bool.false_eq_true, if_false]
      split <;> (try split_ifs) <;> omega
  | readRequests hp hr => simp [effort, hp, Act.isStep]
  | reportRequests hp hr => simp [effort, hp, hr, Act.isStep]
  | stop | stir _ => simp [effort, Act.isStep]
  | reportStop hp _ | pollFailed hp | readStop hp _ | begin hp | finish hp | count hp =>
      simp only [effort, hp, Act.isStep, Bool.false_eq_true, if_false, if_true]
      omega

theorem effort_run (hw : w.Sound) (hr : w.run acts = some w') :
    acts.countP Act.isStep + w'.effort ≤ w.effort + 5 * acts.count .request := by
  induction acts generalizing w with
  | nil =>
      obtain rfl := Option.some.inj hr
      exact Nat.le_of_eq (Nat.zero_add _)
  | cons a acts ih =>
      obtain ⟨u, ha, hu⟩ := Run.foldlM_cons_eq_some hr
      have hrest := ih (hw.act ha) hu
      have hone := effort_happens (hw.happens ha)
      rw [List.countP_cons, List.count_cons]
      rw [List.count_singleton] at hone
      omega

/-- Where nothing holds the loop up, it has ended or there is nothing to do. -/
theorem Sound.quiet (hw : w.Sound) (hq : ∀ a : Act, a.isStep = true → w.act a = none) :
    (∃ outcome, w.phase = .ended outcome) ∨
      (w.phase = .polling ∧ w.requests.counter = 0 ∧ w.stops.counter = 0) := by
  cases hp : w.phase with
  | ended outcome => exact .inl ⟨outcome, rfl⟩
  | polling =>
      have hr := hq .reportRequests rfl
      have hs := hq .reportStop rfl
      simp only [ReloadWatcher.act, hp, Notifier.isReadable, ite_eq_right_iff, reduceCtorEq,
        imp_false, decide_eq_true_eq, Nat.pos_iff_ne_zero, not_not] at hr hs
      exact .inr ⟨rfl, hr, hs⟩
  | requested =>
      have hr := hq .readRequests rfl
      simp [ReloadWatcher.act, hp, Notifier.read_of_counter hw.requests.1 (hw.reported hp)] at hr
  | stopping =>
      have hs := hq .readStop rfl
      simp [ReloadWatcher.act, hp, Notifier.wait_of_semaphore hw.stops.1 (hw.told hp)] at hs
  | starting => simpa [ReloadWatcher.act, hp] using hq .begin rfl
  | reloading => simpa [ReloadWatcher.act, hp] using hq .finish rfl
  | counting => simpa [ReloadWatcher.act, hp] using hq .count rfl

/-- In every run of a watcher no request is lost, each read of requests is followed by one reload of
its own, which is counted, and the first order to stop that is read ends the loop. The loop takes
few steps for every request, and goes on until it has ended or nothing is pending. -/
theorem requests_answered_until_stop (acts : List Act) (hr : new.run acts = some w) :
    Faithful acts w ∧ acts.count .finish = w.reloads + w.phase.underway.count .finish ∧
      acts.countP Act.isStep ≤ 5 * acts.count .request + 2 ∧
      ((∀ a : Act, a.isStep = true → w.act a = none) → (∃ outcome, w.phase = .ended outcome) ∨
        (w.phase = .polling ∧ w.requests.counter = 0 ∧ w.stops.counter = 0)) := by
  obtain ⟨hs, hf⟩ := faithful_run hr
  refine ⟨hf, hf.count_finish, ?_, hs.quiet⟩
  have hle := effort_run sound_new hr
  have hnew : new.effort = 2 := rfl
  omega

/-- Two requests are read together; a third comes before the reload starts, and a second order to
stop while it runs. -/
def thirdRequest : List Act :=
  [.request, .request, .reportRequests, .readRequests, .request, .stop, .begin, .stop, .finish,
    .count, .reportStop, .readStop, .request]

theorem requests_answered_until_stop_thirdRequest :
    ∃ w, new.run thirdRequest = some w ∧ Faithful thirdRequest w ∧ w.phase = .ended (.ok ()) ∧
      w.reloads = 1 ∧ w.requests.counter = 2 ∧ w.stops.counter = 1 := by
  refine ⟨_, rfl, ?_, rfl, rfl, rfl, rfl⟩
  exact (requests_answered_until_stop thirdRequest rfl).1

end SessionDispatch.ReloadWatcher
