import SessionDispatch.Proofs.Daemon.Launching
import SessionDispatch.Proofs.Settings.Layers

/-!
# Reloads over the life of a daemon

A reload makes the configuration again from the file, the environment and the flags that were kept.
It reaches the policies of all managers if that succeeds and nothing if it fails, so that all
managers follow the last reload that succeeded.
-/

namespace SessionDispatch

open CommandLine (Flags)

def Layer.kept : Option Flags → Layer
  | some given => .flags given
  | none => fun _ _ => none

namespace Configuration

/-- What a configuration is made again, if that succeeds. -/
def reread? (c : Configuration) (files : Files) (env : Environment) : Option Configuration := do
  let path ← c.source
  ((load files path env c.overrides).run.run []).1.toOption

/-- The settings with which a configuration is made again: there is a file to read, which is missing
or can be read and parsed, the variable for the port is in range, and the settings are valid in
which the kept flags go over the environment and the environment over the file. -/
def Rereads (c : Configuration) (files : Files) (env : Environment) (s : Settings) : Prop :=
  ∃ path doc, c.source = some path ∧ document? env.processors files path = some doc ∧
    env.PortFits ∧
    ((Layer.kept c.overrides).before ((Layer.environment env).before (Layer.file doc))).Over
      (.default env.processors) s ∧
    s.check.errors = []

theorem over_kept_none {s s' : Settings} : (Layer.kept none).Over s s' ↔ s' = s := by
  constructor
  · intro h
    exact h.unique fun _ _ _ _ => rfl
  · rintro rfl
    exact fun _ _ _ _ => rfl

open Load in
/-- The steps of a load, one after the other. -/
theorem yields_load (files : Files) (path : String) (env : Environment) (flags : Option Flags) :
    (load files path env flags).Yields fun c =>
      ∃ doc s, document? env.processors files path = some doc ∧ env.PortFits ∧
        ((Layer.kept flags).before ((Layer.environment env).before (Layer.file doc))).Over
          (.default env.processors) s ∧
        s.check.errors = [] ∧ c = ⟨s, some path, flags⟩ := by
  have hflags : ∀ c : Configuration, c.overrides = none →
      (match flags with
        | some given => c.overFlags given
        | none => pure c : Load Configuration).Yields fun c' =>
          ∃ s, (Layer.kept flags).Over c.settings s ∧
            c' = { c with settings := s, overrides := flags } := by
    intro c hc
    cases flags with
    | some given => exact yields_overFlags c given
    | none =>
        apply (yields_pure c).congr
        intro c'
        constructor
        · rintro rfl
          exact ⟨_, over_kept_none.mpr rfl, by rw [← hc]⟩
        · rintro ⟨s, hs, rfl⟩
          rw [over_kept_none.mp hs, ← hc]
  have hload : load files path env flags =
      (ofFile env.processors files path >>= fun c => c.overEnvironment env >>= fun c =>
        (match flags with
        | some given => c.overFlags given
        | none => pure c) >>= validated) := by
    cases flags <;> rfl
  rw [hload]
  apply ((yields_ofFile env.processors files path).bind fun c₁ h₁ =>
    (yields_overEnvironment c₁ env).bind fun c₂ h₂ =>
    (hflags c₂ (by obtain ⟨_, _, _, _, rfl⟩ := h₁; obtain ⟨_, _, _, rfl⟩ := h₂; rfl)).bind
      fun c₃ _ => yields_validated c₃).congr
  intro c
  constructor
  · rintro ⟨-, ⟨doc, s₁, hdoc, h₁, rfl⟩, -, ⟨hport, s₂, h₂, rfl⟩, -, ⟨s₃, h₃, rfl⟩, hvalid, rfl⟩
    exact ⟨doc, s₃, hdoc, hport, (h₁.trans h₂).trans h₃, hvalid, rfl⟩
  · rintro ⟨doc, s, hdoc, hport, hs, hvalid, rfl⟩
    obtain ⟨s₁, s₂, -, h₁, h₂, -⟩ := exists_steps (read_document hdoc) hport {}
    obtain ⟨s₃, h₃⟩ : ∃ s₃, (Layer.kept flags).Over s₂ s₃ := by
      cases flags with
      | none => exact ⟨s₂, over_kept_none.mpr rfl⟩
      | some given => exact ⟨_, Layer.over_flags given s₂⟩
    obtain rfl := Layer.Over.unique hs ((h₁.trans h₂).trans h₃)
    exact ⟨_, ⟨doc, s₁, hdoc, h₁, rfl⟩, _, ⟨hport, s₂, h₂, rfl⟩, _, ⟨s, h₃, rfl⟩, hvalid, rfl⟩

theorem reread?_eq_some_iff {c c' : Configuration} {files : Files} {env : Environment} :
    c.reread? files env = some c' ↔ ∃ s, c.Rereads files env s ∧ c' = { c with settings := s } := by
  unfold reread? Rereads
  cases hpath : c.source with
  | none =>
      constructor
      · intro h
        cases h
      · rintro ⟨s, ⟨path, doc, hsome, -⟩, -⟩
        cases hsome
  | some path =>
      have hyields := yields_load files path env c.overrides [] c'
      have hok : ((load files path env c.overrides).run.run []).1.toOption = some c' ↔
          ((load files path env c.overrides).run.run []).1 = .ok c' := by
        cases ((load files path env c.overrides).run.run []).1 <;> simp [Except.toOption]
      refine hok.trans (hyields.trans ?_)
      constructor
      · rintro ⟨doc, s, hdoc, hport, hs, hvalid, rfl⟩
        exact ⟨s, ⟨path, doc, rfl, hdoc, hport, hs, hvalid⟩, by rw [← hpath]⟩
      · rintro ⟨s, ⟨path', doc, hsame, hdoc, hport, hs, hvalid⟩, rfl⟩
        obtain rfl := Option.some.inj hsame
        exact ⟨doc, s, hdoc, hport, hs, hvalid, by rw [← hpath]⟩

/-- A flag for the session timeout goes over whatever else there is. -/
theorem Rereads.sessionTimeout {c : Configuration} {files : Files} {env : Environment}
    {s : Settings} (h : c.Rereads files env s) {given : Flags} {timeout : UInt64}
    (hkept : c.overrides = some given) (hflag : given.sessionTimeoutMs = some timeout) :
    s.dispatch.sessionTimeoutMs = timeout := by
  obtain ⟨path, doc, -, hdoc, hport, hs, -⟩ := h
  rw [hkept] at hs
  obtain ⟨s₁, s₂, -, h₁, h₂, -⟩ := exists_steps (read_document hdoc) hport given
  obtain rfl := Layer.Over.unique hs ((h₁.trans h₂).trans (Layer.over_flags given s₂))
  rw [Flags.override, hflag]
  rfl

end Configuration

namespace Daemon

variable {h : Handler} {network : Network} {c : Configuration} {now : Instant} {d₀ d d' : Daemon}

/-- The configuration that an act makes again, if it is a reload that succeeds. -/
def reread? (c : Configuration) : Act → Option Configuration
  | .reload files env => c.reread? files env
  | _ => none

/-- The configuration whose policy is in force after some acts: the last that a reload has made, and
without one the configuration of the start. -/
def inForce (c : Configuration) (acts : List Act) : Configuration :=
  (acts.filterMap (reread? c)).getLast?.getD c

theorem inForce_concat (acts : List Act) (a : Act) :
    inForce c (acts ++ [a]) = (reread? c a).getD (inForce c acts) := by
  unfold inForce
  rw [List.filterMap_append]
  cases ha : reread? c a with
  | none => simp [ha]
  | some c' => simp [ha]

/-- What an act makes of the policies is what it makes of the configuration. -/
theorem repolicy_eq (hc : d.configuration = c) (a : Act) (current : Configuration) :
    d.repolicy a current.settings.dispatch.policy =
      ((reread? c a).getD current).settings.dispatch.policy := by
  cases a with
  | reload files env =>
      have hsame : d.reloaded? files env = c.reread? files env := by rw [← hc]; rfl
      rw [repolicy, hsame, reread?]
      cases c.reread? files env <;> rfl
  | _ => rfl

theorem isRunning_reload {files : Files} {env : Environment} (t : Task) :
    (d.reload files env).isRunning t = d.isRunning t := by
  unfold reload
  cases d.reloaded? files env <;> rfl

theorem length_services_reload (d : Daemon) (files : Files) (env : Environment) :
    (d.reload files env).services.length = d.services.length := by
  unfold reload
  cases d.reloaded? files env with
  | none => rfl
  | some c => exact List.length_map _

theorem start_policies (hstart : start h network c now = .ok d) :
    d.configuration = c ∧ ∀ s ∈ d.services, s.manager.policy = c.settings.dispatch.policy := by
  have hspec := start_spec h network c now
  rw [hstart] at hspec
  obtain ⟨-, -, hlaunched⟩ := hspec
  constructor
  · rw [hlaunched.same]
    rfl
  · rw [hlaunched.services]
    intro s hs
    obtain ⟨b, -, rfl⟩ := List.mem_map.mp hs
    rfl

theorem policies_run (hstart : start h network c now = .ok d₀) {acts : List Act}
    (hrun : d₀.run h acts = some d) :
    d.configuration = c ∧
      ∀ s ∈ d.services, s.manager.policy = (inForce c acts).settings.dispatch.policy := by
  induction acts using List.reverseRecOn generalizing d with
  | nil =>
      obtain rfl := Option.some.inj hrun
      exact start_policies hstart
  | append_singleton acts a ih =>
      obtain ⟨e, he, ha⟩ := Run.foldlM_concat_eq_some hrun
      obtain ⟨hconfiguration, hpolicies⟩ := ih he
      obtain ⟨-, hsame, hreshaped⟩ := act_frame ha
      refine ⟨hsame.trans hconfiguration, fun s hs => ?_⟩
      have hmem : s.manager.policy ∈ d.services.map (·.manager.policy) := List.mem_map_of_mem hs
      rw [hreshaped.policies] at hmem
      obtain ⟨t, ht, hpolicy⟩ := List.mem_map.mp hmem
      rw [← hpolicy, hpolicies t ht, repolicy_eq hconfiguration, inForce_concat]

/-- After every reload all managers follow the last reload that succeeded, and without one the
configuration of the start. A reload succeeds if and only if there is a file to read, it is missing
or can be read and parsed, the variable for the port is in range, and the settings that come of it
with the kept flags are valid. It changes the policies of the managers and nothing else, and a
reload that fails changes nothing. A timeout that is given by flag is in force after every reload
that succeeds. -/
theorem policies_follow_last_good_reload (hstart : start h network c now = .ok d₀) (acts : List Act)
    (hrun : d₀.run h acts = some d) :
    (∀ s ∈ d.services, s.manager.policy = (inForce c acts).settings.dispatch.policy) ∧
      (∀ files env c', c.reread? files env = some c' ↔
        ∃ s, c.Rereads files env s ∧ c' = { c with settings := s }) ∧
      (∀ files env d', d.act h (.reload files env) = some d' →
        ((∀ s, ¬ c.Rereads files env s) → d' = { d with reloads := d.reloads + 1 }) ∧
          ∀ s, c.Rereads files env s → d' = { d with
            services := d.services.map fun x =>
              { x with manager := { x.manager with policy := s.dispatch.policy } }
            reloads := d.reloads + 1 }) ∧
      (∀ given timeout, c.overrides = some given → given.sessionTimeoutMs = some timeout →
        acts.filterMap (reread? c) ≠ [] →
          (inForce c acts).settings.dispatch.sessionTimeoutMs = timeout) ∧
      d.configuration = c := by
  obtain ⟨hconfiguration, hpolicies⟩ := policies_run hstart hrun
  refine ⟨hpolicies, fun _ _ _ => Configuration.reread?_eq_some_iff, ?_, ?_, hconfiguration⟩
  · intro files env d' ha
    obtain ⟨-, rfl⟩ := act_reload ha
    have hsame : d.reloaded? files env = c.reread? files env := by rw [← hconfiguration]; rfl
    unfold reload
    rw [hsame]
    constructor
    · intro hfails
      have hnone : c.reread? files env = none := by
        refine Option.eq_none_iff_forall_not_mem.mpr fun c' hc' => ?_
        obtain ⟨s, hs, -⟩ := Configuration.reread?_eq_some_iff.mp hc'
        exact hfails s hs
      rw [hnone]
      rfl
    · intro s hs
      rw [Configuration.reread?_eq_some_iff.mpr ⟨s, hs, rfl⟩]
      rfl
  · intro given timeout hkept hflag hsome
    obtain ⟨c', hlast⟩ : ∃ c', (acts.filterMap (reread? c)).getLast? = some c' :=
      ⟨_, List.getLast?_eq_some_getLast hsome⟩
    obtain ⟨a, -, ha⟩ := List.mem_filterMap.mp (List.mem_of_getLast? hlast)
    rw [inForce, hlast, Option.getD_some]
    cases a with
    | reload files env =>
        obtain ⟨s, hs, rfl⟩ := Configuration.reread?_eq_some_iff.mp ha
        exact hs.sessionTimeout hkept hflag
    | _ => cases ha

/-- One family with one endpoint, and a flag that gives the session timeout. -/
def reloadable : Configuration where
  settings := {
    network := { enableIpv6 := false }
    netio := { endpointsPerFamily := 1 }
    dispatch := { dispatchersPerFamily := 1, expiryMode := .sliding }
    runtime := { poolThreads := 1 } }
  source := some "a"
  overrides := some { sessionTimeoutMs := some 700 }

/-- The file has gone, and then it is one that cannot be read. -/
def twoReloads : List Act := [.reload [] ⟨[], 4⟩, .reload [(["a"], .binary)] ⟨[], 4⟩]

/-- The default settings with the timeout of the flag. -/
def withFlag : Settings := { Settings.default 4 with dispatch := { sessionTimeoutMs := 700 } }

/-- Without the file there are the defaults and what the flag gives. -/
theorem inForce_twoReloads : (inForce reloadable twoReloads).settings = withFlag := by
  have hfile : (Layer.file (.table [])).Over (.default 4) (.default 4) :=
    Layer.over_file (by cbv)
  have henvironment : Environment.override ⟨[], 4⟩ (.default 4) = .ok (.default 4, []) := by cbv
  obtain ⟨hport, hover⟩ := Layer.over_environment henvironment
  have hflags := Layer.over_flags { sessionTimeoutMs := some 700 } (.default 4)
  have hgood : reloadable.Rereads [] ⟨[], 4⟩ withFlag :=
    ⟨"a", .table [], rfl, by cbv, hport, (hfile.trans hover).trans hflags, by cbv⟩
  have hbad : reloadable.reread? [(["a"], .binary)] ⟨[], 4⟩ = none := by
    refine Option.eq_none_iff_forall_not_mem.mpr fun c' hc' => ?_
    obtain ⟨s, ⟨path, doc, hpath, hdoc, -⟩, -⟩ := Configuration.reread?_eq_some_iff.mp hc'
    obtain rfl := Option.some.inj hpath
    have hnone : Configuration.document? 4 [(["a"], .binary)] "a" = none := by cbv
    cases hnone.symm.trans hdoc
  have hfirst : reread? reloadable (.reload [] ⟨[], 4⟩) =
      some { reloadable with settings := withFlag } :=
    Configuration.reread?_eq_some_iff.mpr ⟨_, hgood, rfl⟩
  have hsecond : reread? reloadable (.reload [(["a"], .binary)] ⟨[], 4⟩) = none := hbad
  have hacts : twoReloads.filterMap (reread? reloadable) =
      [{ reloadable with settings := withFlag }] := by
    rw [twoReloads, List.filterMap_cons_some hfirst, List.filterMap_cons_none hsecond,
      List.filterMap_nil]
  rw [inForce, hacts]
  rfl

theorem policies_follow_last_good_reload_twoReloads :
    ∃ d₀ d, start .silent .unlimited reloadable 0 = .ok d₀ ∧ d₀.run .silent twoReloads = some d ∧
      d.services.length = 1 ∧ ∀ s ∈ d.services, s.manager.policy = ⟨700, .fixed⟩ := by
  have hwatched : (start .silent .unlimited reloadable 0).toOption.map
      (fun d => (d.isRunning .reloadWatcher, d.services.length)) = some (true, 1) := by
        decide +kernel
  cases hstart : start .silent .unlimited reloadable 0 with
  | error e =>
      rw [hstart] at hwatched
      cases hwatched
  | ok d₀ =>
      rw [hstart] at hwatched
      obtain ⟨hrunning, hlength⟩ := Prod.mk.inj (Option.some.inj hwatched)
      have hfirst : d₀.act .silent (.reload [] ⟨[], 4⟩) = some (d₀.reload [] ⟨[], 4⟩) :=
        if_pos hrunning
      have hsecond : (d₀.reload [] ⟨[], 4⟩).act .silent (.reload [(["a"], .binary)] ⟨[], 4⟩) =
          some ((d₀.reload [] ⟨[], 4⟩).reload [(["a"], .binary)] ⟨[], 4⟩) :=
        if_pos ((isRunning_reload _).trans hrunning)
      have hrun : d₀.run .silent twoReloads =
          some ((d₀.reload [] ⟨[], 4⟩).reload [(["a"], .binary)] ⟨[], 4⟩) := by
        simp [run, twoReloads, hfirst, hsecond]
      obtain ⟨hpolicies, -⟩ := policies_follow_last_good_reload hstart twoReloads hrun
      rw [inForce_twoReloads] at hpolicies
      have hlength' : ((d₀.reload [] ⟨[], 4⟩).reload [(["a"], .binary)] ⟨[], 4⟩).services.length =
          1 := by rw [length_services_reload, length_services_reload, hlength]
      exact ⟨d₀, _, rfl, hrun, hlength', hpolicies⟩

end Daemon

end SessionDispatch
