import SessionDispatch.Proofs.Daemon.Descent

/-!
# What a start leaves is in order

The loops that a start has launched, whether it succeeds or not, have different names, and each has
its family, its endpoint and its order. So all that is kept account of begins in order. If the pool
has workers enough, every loop has one.
-/

namespace SessionDispatch.Daemon

variable {c : Configuration} {now : Instant} {served : List (Family × List Endpoint)}
variable {last : List Task} {d : Daemon}

/-! ## Names -/

/-- The families are different, and so are the numbers of the endpoints of each. -/
structure Distinct (served : List (Family × List Endpoint)) : Prop where
  families : (served.map (·.1)).Nodup
  endpoints : ∀ b ∈ served, (b.2.map (·.id)).Nodup

theorem Distinct.sublist {served' : List (Family × List Endpoint)} (hd : Distinct served)
    (hs : served'.Sublist served) :
    Distinct served' :=
  ⟨hd.families.sublist (hs.map _), fun b hb => hd.endpoints b (hs.mem hb)⟩

theorem bound_ids_sublist (network : Network) (s : Settings) (family : Family)
    (sockets count : Nat) :
    ((bound network s family sockets count).map (·.id)).Sublist (List.range count) := by
  induction count with
  | zero => exact .refl _
  | succ count ih =>
      rw [bound_succ, List.map_append, List.range_succ]
      apply ih.append
      cases hbind : bindOutcome network s family sockets count with
      | error f => exact List.nil_sublist _
      | ok e =>
          change [e.id].Sublist _
          rw [id_of_bindOutcome hbind]

theorem map_fst_bindings (network : Network) (s : Settings) (families : List Family)
    (sockets : Nat) :
    (bindings network s families sockets).map (·.1) = families := by
  induction families generalizing sockets with
  | nil => rfl
  | cons family rest ih =>
      rw [bindings, List.map_cons, ih]

theorem exists_of_mem_bindings {network : Network} {s : Settings} {families : List Family}
    {sockets : Nat} {b : Family × List Endpoint} (hb : b ∈ bindings network s families sockets) :
    ∃ before, b.2 = bound network s b.1 before s.netio.endpointsPerFamily.toNat := by
  induction families generalizing sockets with
  | nil => cases hb
  | cons family rest ih =>
      rcases List.mem_cons.mp hb with rfl | hb
      · exact ⟨sockets, rfl⟩
      · exact ih hb

theorem distinct_bindings (network : Network) (s : Settings) {families : List Family}
    (hn : families.Nodup) (sockets : Nat) : Distinct (bindings network s families sockets) := by
  constructor
  · rw [map_fst_bindings]
    exact hn
  · intro b hb
    obtain ⟨before, hb⟩ := exists_of_mem_bindings hb
    rw [hb]
    exact List.nodup_range.sublist (bound_ids_sublist ..)

def familyOf? : Task → Option Family
  | .dispatcher family _ | .receiver family _ | .sender family _ => some family
  | .timer | .reloadWatcher => none

theorem mem_dispatchers {s : Settings} {family : Family} {t : Task} :
    t ∈ dispatchers s family ↔
      ∃ n < s.dispatch.dispatchersPerFamily.toNat, t = .dispatcher family n := by
  simp [dispatchers, eq_comm]

theorem mem_endpointLoops {family : Family} {endpoints : List Endpoint} {t : Task} :
    t ∈ endpointLoops family endpoints ↔
      ∃ e ∈ endpoints, t = .receiver family e.id ∨ t = .sender family e.id := by
  simp [endpointLoops]

theorem mem_loops {s : Settings} {t : Task} : t ∈ loops s served ↔ t = .timer ∨
    ∃ b ∈ served, t ∈ dispatchers s b.1 ∨ t ∈ endpointLoops b.1 b.2 := by
  simp [loops]

theorem familyOf?_of_mem {s : Settings} {family : Family} {endpoints : List Endpoint} {t : Task}
    (ht : t ∈ dispatchers s family ++ endpointLoops family endpoints) :
    familyOf? t = some family := by
  rcases List.mem_append.mp ht with ht | ht
  · obtain ⟨n, -, rfl⟩ := mem_dispatchers.mp ht
    rfl
  · obtain ⟨e, -, rfl | rfl⟩ := mem_endpointLoops.mp ht <;> rfl

theorem endpointLoops_nodup {family : Family} {endpoints : List Endpoint}
    (hn : (endpoints.map (·.id)).Nodup) :
    (endpointLoops family endpoints).Nodup := by
  unfold endpointLoops
  rw [List.nodup_flatMap]
  refine ⟨fun e _ => by simp, (List.pairwise_map.mp hn).imp ?_⟩
  intro e e' hne
  simp [Function.onFun, hne.symm]

theorem loops_nodup (s : Settings) (hd : Distinct served) : (loops s served).Nodup := by
  unfold loops
  rw [List.nodup_cons, List.nodup_flatMap]
  refine ⟨?_, fun b hb => ?_, ?_⟩
  · intro ht
    obtain ⟨b, -, ht⟩ := List.mem_flatMap.mp ht
    cases familyOf?_of_mem ht
  · refine .append ?_ (endpointLoops_nodup (hd.endpoints b hb)) ?_
    · exact List.nodup_range.map fun n n' hsame => (Task.dispatcher.inj hsame).2
    · intro t hdispatcher hendpoint
      obtain ⟨n, -, rfl⟩ := mem_dispatchers.mp hdispatcher
      obtain ⟨e, -, hsame | hsame⟩ := mem_endpointLoops.mp hendpoint <;> cases hsame
  · refine (List.pairwise_map.mp hd.families).imp ?_
    intro b b' hne t ht ht'
    have hsame := (familyOf?_of_mem ht).symm.trans (familyOf?_of_mem ht')
    exact hne (Option.some.inj hsame)

theorem names_nodup (s : Settings) (hd : Distinct served) (hlast : last.Sublist [.reloadWatcher]) :
    (loops s served ++ last).Nodup := by
  refine .append (loops_nodup s hd) ((List.nodup_singleton _).sublist hlast) ?_
  intro t ht hwatcher
  obtain rfl := List.mem_singleton.mp (hlast.mem hwatcher)
  rcases mem_loops.mp ht with ht | ⟨b, -, ht⟩
  · cases ht
  · cases familyOf?_of_mem (List.mem_append.mpr ht)

/-! ## Families, endpoints and orders -/

section Launched

variable (hl : Launched c now served last d) (hd : Distinct served)
include hl

theorem Launched.services_families : d.services.map (·.family) = served.map (·.1) := by
  rw [hl.services, List.map_map]
  rfl

include hd in
theorem Launched.endpoints_eq {b : Family × List Endpoint} (hb : b ∈ served) :
    d.endpoints b.1 = b.2 := by
  have hmem : service c.settings b.1 b.2 ∈ d.services := by
    rw [hl.services]
    exact List.mem_map_of_mem hb
  have hfind : d.service? b.1 = some (service c.settings b.1 b.2) :=
    service?_of_mem (hl.services_families ▸ hd.families) hmem
  rw [Daemon.endpoints, hfind]
  rfl

/-- The loops of the families and of their endpoints have their orders. -/
theorem Launched.ordered (hlast : last.Sublist [.reloadWatcher]) {t : Task}
    (ht : t ∈ loops c.settings served ++ last) :
    orderFor t ∈ d.orders := by
  rw [mem_orders]
  rcases List.mem_append.mp ht with ht | ht
  · rcases mem_loops.mp ht with rfl | ⟨b, hb, ht⟩
    · exact .inr (.inl rfl)
    · have hmem : service c.settings b.1 b.2 ∈ d.services := by
        rw [hl.services]
        exact List.mem_map_of_mem hb
      refine .inr (.inr ⟨_, hmem, ?_⟩)
      rcases ht with ht | ht
      · obtain ⟨n, -, rfl⟩ := mem_dispatchers.mp ht
        exact .inl rfl
      · obtain ⟨e, he, rfl | rfl⟩ := mem_endpointLoops.mp ht
        · exact .inr (.inr ⟨e, he, rfl⟩)
        · exact .inr (.inl rfl)
  · obtain rfl := List.mem_singleton.mp (hlast.mem ht)
    exact .inl rfl

include hd in
theorem Launched.wired (hlast : last.Sublist [.reloadWatcher]) : d.Wired := by
  refine ⟨hl.services_families ▸ hd.families, fun t ht => hl.ordered hlast (hl.tasks ▸ ht), ?_⟩
  intro family id ht
  rw [hl.tasks] at ht
  rcases List.mem_append.mp ht with ht | ht
  · rcases mem_loops.mp ht with ht | ⟨b, hb, ht | ht⟩
    · cases ht
    · obtain ⟨n, -, ht⟩ := mem_dispatchers.mp ht
      cases ht
    · obtain ⟨e, he, ht | ht⟩ := mem_endpointLoops.mp ht
      · cases ht
      · obtain ⟨rfl, rfl⟩ := Task.sender.inj ht
        rw [hl.endpoints_eq hd hb]
        exact Option.isSome_iff_exists.mp (List.find?_isSome.mpr ⟨e, he, decide_eq_true rfl⟩)
  · cases List.mem_singleton.mp (hlast.mem ht)

/-! ## Accounts -/

include hd in
theorem Launched.staffed (hlast : last.Sublist [.reloadWatcher]) : d.Staffed (crewOf c) [] := by
  have he := hl.enlisted
  have hexpiries : d.expiries = [] := by rw [hl.same]; rfl
  have hphase : d.phase = .running := by rw [hl.same]; rfl
  have hreleased : d.released = 0 := by rw [hl.same]; rfl
  have hjobs : d.tasks.map (·.2) ++ d.expiries.map (·.1) = List.range d.tasks.length := by
    rw [hexpiries, he.jobs]
    exact List.append_nil _
  refine ⟨⟨he.pool, ?_, ?_, ?_, List.nodup_nil, nofun, ?_, ?_⟩, ⟨?_, ?_, ?_, ?_, ?_, ?_, ?_, ?_⟩⟩
  · rw [hl.tasks]
    exact names_nodup c.settings hd hlast
  · rw [hjobs]
    exact List.nodup_range
  · rw [hjobs, he.nextTask]
    exact fun job hjob => List.mem_range.mp hjob
  · exact he.live.nodup_iff.mpr List.nodup_range
  · intro job
    rw [he.live.mem_iff, ← he.jobs, List.mem_map, hexpiries]
    constructor
    · rintro ⟨⟨t, job⟩, ht, rfl⟩
      exact .inl ⟨t, ht, List.not_mem_nil⟩
    · rintro (⟨t, ht, -⟩ | hexpiry)
      · exact ⟨(t, job), ht, rfl⟩
      · cases hexpiry
  · exact fun e _ => he.slots e.2
  · rw [hphase]
    exact fun e he => nomatch he
  · rw [hphase]
    rfl
  · rw [hphase]
    exact Nat.zero_le _
  · rw [hphase, he.isOpen]
    rfl
  · rw [hphase]
    exact nofun
  · rw [hphase]
    exact nofun
  · rw [hphase, hreleased]
    rfl

theorem Launched.running : d.phase = .running := by
  rw [hl.same]
  rfl

theorem Launched.balanced : d.Balanced [] := by
  refine ⟨fun family q hq => ?_, nofun⟩
  obtain ⟨m, hm, rfl⟩ := Option.map_eq_some_iff.mp hq
  obtain ⟨s, hs, rfl⟩ := Option.map_eq_some_iff.mp hm
  have hmem := List.mem_of_find?_eq_some hs
  rw [hl.services] at hmem
  obtain ⟨b, -, rfl⟩ := List.mem_map.mp hmem
  have hhands : d.hands = [] := by rw [hl.same]; rfl
  rw [inHand, hhands]
  exact .refl _

include hd in
theorem Launched.accounted (hlast : last.Sublist [.reloadWatcher]) : d.Accounted (crewOf c) [] := by
  have hhands : d.hands = [] := by rw [hl.same]; rfl
  refine ⟨hl.staffed hd hlast, ⟨?_, ?_, ?_⟩, hl.balanced, hl.wired hd hlast, .of_running hl.running⟩
  all_goals rw [hhands]
  · exact List.nodup_nil
  · exact nofun
  · exact nofun

end Launched

/-! ## Starts -/

section Start

variable {h : Handler} {network : Network}

/-- What is kept account of is in order when a daemon was started. -/
theorem started (hstart : start h network c now = .ok d) :
    d.Accounted (crewOf c) [] ∧ d.phase = .running := by
  have hspec := start_spec h network c now
  rw [hstart] at hspec
  obtain ⟨-, -, hlaunched⟩ := hspec
  have hdistinct := distinct_bindings network c.settings (families_nodup c.settings.network) 0
  exact ⟨hlaunched.accounted hdistinct (.refl _), hlaunched.running⟩

end Start

def oneEndpoint : Configuration where
  settings := {
    network := { enableIpv6 := false }
    netio := { endpointsPerFamily := 1 }
    dispatch := { dispatchersPerFamily := 1 }
    runtime := { poolThreads := 1 } }

end SessionDispatch.Daemon
