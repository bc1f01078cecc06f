import SessionDispatch.Proofs.Daemon.Shutdown
import SessionDispatch.Proofs.Settings.Limits

/-!
# Starts that succeed and starts that fail

A start succeeds if every family gets an endpoint. If one does not, what had been started is brought
down: the queues of that family and of the families before it are closed, and every loop and every
thread is waited for.
-/

namespace SessionDispatch.Daemon

variable {h : Handler} {network : Network} {c : Configuration} {now : Instant} {d : Daemon}

/-! ## Which endpoints there are -/

/-- Each family asks for its sockets after all those of the families before it. -/
theorem getElem?_bindings (network : Network) (s : Settings) (families : List Family)
    (sockets position : Nat) :
    (bindings network s families sockets)[position]? = families[position]?.map fun family =>
      (family, bound network s family (sockets + position * s.netio.endpointsPerFamily.toNat)
        s.netio.endpointsPerFamily.toNat) := by
  induction families generalizing sockets position with
  | nil => rfl
  | cons family rest ih =>
      cases position with
      | zero => simp [bindings]
      | succ position =>
          rw [bindings, List.getElem?_cons_succ, List.getElem?_cons_succ, ih, Nat.succ_mul,
            Nat.add_assoc, Nat.add_comm s.netio.endpointsPerFamily.toNat]

theorem bound_ne_nil_iff {s : Settings} {family : Family} {sockets count : Nat} :
    bound network s family sockets count ≠ [] ↔
      ∃ id < count, ∃ e, bindOutcome network s family sockets id = .ok e := by
  rw [bound, ne_eq, List.filterMap_eq_nil_iff]
  constructor
  · intro hsome
    by_contra hnone
    refine hsome fun id hid => ?_
    cases hbind : bindOutcome network s family sockets id with
    | error f => rfl
    | ok e => exact absurd ⟨id, List.mem_range.mp hid, e, hbind⟩ hnone
  · rintro ⟨id, hid, e, hbind⟩ hnone
    have hout := hnone id (List.mem_range.mpr hid)
    rw [hbind] at hout
    cases hout

/-- Every family gets an endpoint if each has a socket that can be bound. -/
theorem bindings_all_iff {s : Settings} :
    (∀ b ∈ bindings network s s.network.families 0, b.2 ≠ []) ↔
      ∀ (position : Nat) family, s.network.families[position]? = some family →
        ∃ id < s.netio.endpointsPerFamily.toNat, ∃ e,
          bindOutcome network s family (position * s.netio.endpointsPerFamily.toNat) id =
            .ok e := by
  constructor
  · intro hall position family hfamily
    have hget := getElem?_bindings network s s.network.families 0 position
    rw [hfamily, Option.map_some, Nat.zero_add] at hget
    exact bound_ne_nil_iff.mp (hall _ (List.mem_of_getElem? hget))
  · intro hall b hb
    obtain ⟨position, hposition⟩ := List.getElem?_of_mem hb
    rw [getElem?_bindings, Nat.zero_add] at hposition
    obtain ⟨family, hfamily, rfl⟩ := Option.map_eq_some_iff.mp hposition
    exact bound_ne_nil_iff.mpr (hall position family hfamily)

/-! ## What is left of a start that fails -/

theorem Wired.queues_closed (hd : d.Wired) (hobeyed : ∀ o ∈ d.orders, d.Obeyed o)
    {s : FamilyService} (hs : s ∈ d.services) :
    s.manager.inbound.closed = true ∧ s.manager.outbound.closed = true := by
  have hm : d.manager? s.family = some s.manager := by
    rw [manager?, service?_of_mem hd.families hs]
    rfl
  obtain ⟨q, hq, hin⟩ :=
    hobeyed (.closeInbound s.family) (mem_orders.mpr (.inr (.inr ⟨s, hs, .inl rfl⟩)))
  obtain ⟨q', hq', hout⟩ :=
    hobeyed (.closeOutbound s.family) (mem_orders.mpr (.inr (.inr ⟨s, hs, .inr (.inl rfl)⟩)))
  rw [inbound?, hm] at hq
  rw [outbound?, hm] at hq'
  obtain rfl := Option.some.inj hq
  obtain rfl := Option.some.inj hq'
  exact ⟨hin, hout⟩

/-- However the loops of a start that fails take turns, they can come to their end, and then nothing
is left open. -/
theorem Launched.cleans_up {served : List (Family × List Endpoint)}
    (hl : Launched c now served [] d) (hdistinct : Distinct served) (h : Handler)
    (network : Network) {acts : List Act} {d' : Daemon} (hrun : d.run h acts = some d') :
    (∃ more d'' r, d'.run h more = some d'' ∧ d''.phase = .down r) ∧
      ∀ r, d'.phase = .down r → Concluded (crewOf c) d d' (d.notes h acts) r ∧
        d'.services.map (·.family) = served.map (·.1) ∧
        ∀ x ∈ d'.services, x.manager.inbound.closed = true ∧ x.manager.outbound.closed = true := by
  have hd := hl.accounted hdistinct (List.nil_sublist _)
  have hd' := hd.run hrun
  obtain ⟨-, horders, hfamilies⟩ := run_frame hrun
  refine ⟨exists_run_down h network hd', fun r hdown => ?_⟩
  have hconcluded := hd.concluded hrun hdown
  refine ⟨hconcluded, hfamilies.trans hl.services_families,
    fun x hx => hd'.wired.queues_closed ?_ hx⟩
  rw [horders]
  exact hconcluded.obeyed

/-- With a family to serve, only a family without an endpoint ends a start. -/
theorem start_ok_iff (h : Handler) (now : Instant) (hfamilies : c.settings.network.families ≠ []) :
    (∃ d, start h network c now = .ok d) ↔
      ∀ b ∈ bindings network c.settings c.settings.network.families 0, b.2 ≠ [] := by
  have hspec := start_spec h network c now
  cases hstart : start h network c now with
  | ok d =>
      rw [hstart] at hspec
      exact ⟨fun _ => hspec.2.1, fun _ => ⟨d, rfl⟩⟩
  | error failed =>
      obtain ⟨reason, left⟩ := failed
      rw [hstart] at hspec
      constructor
      · rintro ⟨d, hok⟩
        cases hok
      · intro hall
        cases reason with
        | noFamily =>
            have hnone := map_fst_bindings network c.settings c.settings.network.families 0
            rw [hspec.1] at hnone
            exact absurd hnone.symm hfamilies
        | unbound family host port =>
            obtain ⟨-, -, before, after, launched, hsplit, -⟩ := hspec
            have hbad :
                (family, []) ∈ bindings network c.settings c.settings.network.families 0 := by
              rw [hsplit]
              exact List.mem_append_right _ List.mem_cons_self
            exact absurd rfl (hall _ hbad)

/-- What a start that fails had launched when it came to the first family without an endpoint. -/
theorem start_error (hfamilies : c.settings.network.families ≠ []) {reason : StartError}
    {left : Option Daemon} (hstart : start h network c now = .error (reason, left)) :
    ∃ before family after launched,
      bindings network c.settings c.settings.network.families 0 = before ++ (family, []) :: after ∧
      (∀ b ∈ before, b.2 ≠ []) ∧
      reason = .unbound family (c.settings.network.host family) c.settings.network.port ∧
      Launched c now (before ++ [(family, [])]) [] launched ∧ Distinct (before ++ [(family, [])]) ∧
      left = some (launched.shutdown h network) := by
  have hspec := start_spec h network c now
  rw [hstart] at hspec
  cases reason with
  | noFamily =>
      have hnone := map_fst_bindings network c.settings c.settings.network.families 0
      rw [hspec.1] at hnone
      exact absurd hnone.symm hfamilies
  | unbound family host port =>
      obtain ⟨rfl, rfl, before, after, launched, hsplit, hall, hlaunched, rfl⟩ := hspec
      refine ⟨before, family, after, launched, hsplit, hall, rfl, hlaunched, ?_, rfl⟩
      apply (distinct_bindings network c.settings (families_nodup c.settings.network) 0).sublist
      rw [hsplit]
      exact (List.singleton_sublist.mpr List.mem_cons_self).append_left before

/-- A start with valid settings succeeds if and only if each family has a socket that can be bound.
Then the timer runs, the dispatchers and the two loops of every endpoint that could be bound for
each family, and the reload watcher. Otherwise the first family without an endpoint ends the start.
What had been started is shut down, and however its loops take turns it can come to the end of that:
then every loop has ended and was waited for, the queues of all families are closed, no thread of
the pool is left, and the handler was released once. -/
theorem start_serves_or_cleans_up (hvalid : c.settings.check.errors = []) (h : Handler)
    (network : Network) (now : Instant) :
    let s := c.settings
    ((∃ d, start h network c now = .ok d) ↔
      ∀ (position : Nat) family, s.network.families[position]? = some family →
        ∃ id < s.netio.endpointsPerFamily.toNat, ∃ e,
          bindOutcome network s family (position * s.netio.endpointsPerFamily.toNat) id = .ok e) ∧
      (∀ d, start h network c now = .ok d → d.phase = .running ∧
        d.tasks.map (·.1) = loops s (bindings network s s.network.families 0) ++ [.reloadWatcher]) ∧
      ∀ reason left, start h network c now = .error (reason, left) →
        ∃ before family after launched acts r,
          bindings network s s.network.families 0 = before ++ (family, []) :: after ∧
          (∀ b ∈ before, b.2 ≠ []) ∧
          reason = .unbound family (s.network.host family) s.network.port ∧
          launched.tasks.map (·.1) = loops s (before ++ [(family, [])]) ∧
          left = some (launched.shutdown h network) ∧
          launched.run h acts = some (launched.shutdown h network) ∧
          (launched.shutdown h network).phase = .down r ∧
          ∀ acts d, launched.run h acts = some d →
            (∃ more d' r, d.run h more = some d' ∧ d'.phase = .down r) ∧
            ∀ r, d.phase = .down r → Concluded (crewOf c) launched d (launched.notes h acts) r ∧
              d.services.map (·.family) = before.map (·.1) ++ [family] ∧
              ∀ x ∈ d.services, x.manager.inbound.closed = true ∧
                x.manager.outbound.closed = true := by
  intro s
  have hfamilies := (Settings.limited_of_valid hvalid).families
  rw [← bindings_all_iff]
  refine ⟨start_ok_iff h now hfamilies, fun d hstart => ?_, fun reason left hstart => ?_⟩
  · have hspec := start_spec h network c now
    rw [hstart] at hspec
    exact ⟨hspec.2.2.running, hspec.2.2.tasks⟩
  · obtain ⟨before, family, after, launched, hsplit, hall, hreason, hlaunched, hdistinct, hleft⟩ :=
      start_error hfamilies hstart
    obtain ⟨acts, r, hacts, hdown⟩ :=
      shutdown_down h network (hlaunched.accounted hdistinct (List.nil_sublist _)) hlaunched.running
    refine ⟨before, family, after, launched, acts, r, hsplit, hall, hreason, ?_, hleft, hacts,
      hdown, ?_⟩
    · rw [hlaunched.tasks, List.append_nil]
    · intro acts d hrun
      obtain ⟨hends, hclean⟩ := hlaunched.cleans_up hdistinct h network hrun
      rw [List.map_append] at hclean
      exact ⟨hends, hclean⟩

/-- Both families, each with one endpoint and one dispatcher. -/
def twoFamilies : Configuration where
  settings := {
    netio := { endpointsPerFamily := 1 }
    dispatch := { dispatchersPerFamily := 1 }
    runtime := { poolThreads := 1 } }

/-- Without a way out the second family gets no endpoint, and what was started for both is
shut down. -/
theorem start_serves_or_cleans_up_isolated : twoFamilies.settings.check.errors = [] ∧
    ∃ (launched : Daemon) (r : ShutdownReport), start .silent .isolated twoFamilies 0 =
        .error (.unbound .v6 "::" 34455, some (launched.shutdown .silent .isolated)) ∧
      launched.tasks.map (·.1) =
        [.timer, .dispatcher .v4 0, .receiver .v4 0, .sender .v4 0, .dispatcher .v6 0] ∧
      (launched.shutdown .silent .isolated).phase = .down r ∧ r.tasksJoined = 5 ∧
      (launched.shutdown .silent .isolated).pool.workers = [] ∧
      (launched.shutdown .silent .isolated).released = 1 := by
  have hvalid : twoFamilies.settings.check.errors = [] := by cbv
  refine ⟨hvalid, ?_⟩
  have hbindings : bindings .isolated twoFamilies.settings twoFamilies.settings.network.families 0 =
      [(.v4, [⟨0, .v4 ⟨127, 0, 0, 1⟩ 34455, 1024⟩]), (.v6, [])] := by decide +kernel
  have hfails : (start .silent .isolated twoFamilies 0).toOption.isNone = true := by decide +kernel
  cases hstart : start .silent .isolated twoFamilies 0 with
  | ok d =>
      rw [hstart] at hfails
      cases hfails
  | error failed =>
      obtain ⟨-, -, hfailed⟩ := start_serves_or_cleans_up hvalid .silent .isolated 0
      obtain ⟨before, family, after, launched, acts, r, hsplit, -, hreason, htasks, hleft, hacts,
        hdown, hclean⟩ :=
        hfailed failed.1 failed.2 hstart
      rw [hbindings] at hsplit
      obtain ⟨rfl, rfl⟩ : before = [(.v4, [⟨0, .v4 ⟨127, 0, 0, 1⟩ 34455, 1024⟩])] ∧
          family = .v6 := by
        rcases before with _ | ⟨b, _ | ⟨b', before⟩⟩
        · simp at hsplit
        · obtain ⟨rfl, hrest⟩ := List.cons.inj hsplit
          exact ⟨rfl, (Prod.mk.inj (List.cons.inj hrest).1).1.symm⟩
        · simp at hsplit
      have htasks : launched.tasks.map (·.1) =
          [.timer, .dispatcher .v4 0, .receiver .v4 0, .sender .v4 0, .dispatcher .v6 0] := htasks
      obtain ⟨-, hreport⟩ := hclean acts _ hacts
      obtain ⟨hconcluded, -⟩ := hreport r hdown
      refine ⟨launched, r, ?_, htasks, hdown, ?_, hconcluded.workers, hconcluded.released⟩
      · rw [show failed = (failed.1, failed.2) from rfl, hreason, hleft]
        rfl
      · rw [hconcluded.joined, ← List.length_map (f := (·.1)), htasks]
        rfl

end SessionDispatch.Daemon
