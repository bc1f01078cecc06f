import SessionDispatch.Proofs.Settings.Sections

/-!
# Settings in layers

A document, the environment and the flags are layers that give values for some settings. A
configuration that is made holds for every setting what the highest layer gives that gives anything,
and the default if there is none.
-/

namespace SessionDispatch

open CommandLine (Flags)

/-! ## Layers -/

/-- What a layer gives for each setting. -/
abbrev Layer := (p : Section) → (k : Setting p.Part) → Option k.Value

namespace Layer

/-- The values of a document, each under the names of its section and its setting. -/
def file (doc : Tree) : Layer := fun p k => do
  let settings ← Settings.document.part? "global" doc
  let part ← Settings.fields.part? p.name settings
  let value ← p.fields.part? k.name part
  k.decode value

def environment (env : Environment) : Layer :=
  fun p k => k.convert env ("global." ++ p.name ++ "." ++ k.name)

def flags (given : Flags) : Layer := fun _ k => k.flag given

/-- What the first layer gives, and else what the second gives. -/
def before (l m : Layer) : Layer := fun p k => (l p k).or (m p k)

/-- Settings hold what a layer gives, and else what other settings hold. -/
def Over (l : Layer) (s s' : Settings) : Prop :=
  ∀ p ∈ Section.all, ∀ k ∈ p.settings, k.get (p.get s') = (l p k).getD (k.get (p.get s))

variable {l m : Layer} {s s' s'' : Settings}

theorem Over.unique (h : l.Over s s') (h' : l.Over s s'') : s' = s'' := by
  apply Settings.ext_sections
  intro p hp
  apply p.complete
  intro k hk
  rw [h p hp k hk, h' p hp k hk]

theorem Over.trans (hm : m.Over s s') (hl : l.Over s' s'') : (l.before m).Over s s'' := by
  intro p hp k hk
  rw [hl p hp k hk, hm p hp k hk, before, Option.getD_or]

theorem over_file {processors : UInt64} {doc : Tree}
    (h : Settings.read processors Tree.tomlFormat doc = some s) :
    (file doc).Over (.default processors) s := by
  intro p hp k hk
  unfold Settings.read at h
  generalize Settings.default processors = d at h ⊢
  have hpart : p.fields.Reads Tree.tomlFormat (p.get d) k.get _ := (p.inFields _ k hk).reads
  have hsection := (keeps_section d p hp).through hpart
  exact (keeps_global d).through hsection doc s h

example : (Settings.read 8 Tree.tomlFormat (.table [("global", .table [
    ("network", .list [.scalar (.text "10.0.0.1")])])])).map
      (fun s => (s.network.host4, s.runtime.poolThreads)) = some ("10.0.0.1", 8) := by
  cbv

end Layer

namespace Numeral

theorem signed?_toNat_lt {bits : Nat} {text : List Char} {n : Int}
    (h : signed? bits text = some n) :
    n.toNat < Nat.pow 2 (bits - 1) := by
  have hpos : 0 < Nat.pow 2 (bits - 1) := Nat.two_pow_pos _
  unfold signed? at h
  split at h
  · obtain ⟨k, -, rfl⟩ := Option.map_eq_some_iff.mp h
    have hnat : (-Int.ofNat k).toNat = 0 :=
      Int.toNat_of_nonpos (Int.neg_nonpos_of_nonneg (Int.natCast_nonneg k))
    rwa [hnat]
  · obtain ⟨k, hk, rfl⟩ := Option.map_eq_some_iff.mp h
    have hle := of_decide_eq_true (Option.filter_eq_some_iff.mp hk).2
    exact Nat.lt_of_le_pred hpos hle

end Numeral

namespace Environment

/-- The only variable that is not passed over when it is no value of its setting. -/
def PortFits (env : Environment) : Prop :=
  ∀ n, env.int? "global.network.port" = some n → 0 ≤ n ∧ n ≤ 0xffff

variable {env : Environment} {path : String}

theorem int?_toNat_lt {n : Int} (h : env.int? path = some n) : n.toNat < Nat.pow 2 63 := by
  obtain ⟨value, -, hn⟩ := Option.bind_eq_some_iff.mp h
  split at hn
  case h_7 => exact Numeral.signed?_toNat_lt hn
  all_goals
    obtain rfl := Option.some.inj hn
    decide

/-- A count holds the number that the variable gives. -/
theorem toNat_count (d : UInt64) :
    ((env.count? path).getD d).toNat = (env.natural? path).getD d.toNat := by
  rw [count?, natural?]
  cases hn : env.int? path with
  | none => rfl
  | some n =>
      have hlt : n.toNat < UInt64.size := Nat.lt_trans (int?_toNat_lt hn) (by decide)
      exact UInt64.toNat_ofNat_of_lt' hlt

theorem word?_fst {α : Type} (env : Environment) (path name : String)
    (parse : String → Except ParseError α) :
    (env.word? path name parse).1 = parsed? parse env path := by
  rw [word?, parsed?]
  cases env.text? path with
  | none => rfl
  | some t =>
      rw [Option.map_some, Option.bind_some]
      cases parse t <;> rfl

/-- The port is the number that the variable gives, which must be one. -/
theorem port_eq_ok {other port : UInt16} :
    env.port other = .ok port ↔
      env.PortFits ∧ port.toNat = (env.natural? "global.network.port").getD other.toNat := by
  rw [Environment.port, PortFits, natural?]
  cases hn : env.int? "global.network.port" with
  | none => simp [UInt16.toNat_inj, eq_comm]
  | some n =>
      dsimp only [Option.map_some, Option.getD_some]
      constructor
      · intro h
        split at h
        · rename_i hfits
          obtain rfl := Except.ok.inj h
          refine ⟨fun m hm => Option.some.inj hm ▸ hfits, UInt16.toNat_ofNat_of_lt' ?_⟩
          change n.toNat < 65536
          omega
        · cases h
      · rintro ⟨hfits, hport⟩
        rw [if_pos (hfits n rfl), ← hport, Nat.toUInt16, UInt16.ofNat_toNat]

end Environment

namespace Layer

variable {env : Environment} {s s' : Settings} {ws : List Warning}

theorem over_environment (h : env.override s = .ok (s', ws)) :
    env.PortFits ∧ (environment env).Over s s' := by
  unfold Environment.override at h
  cases hport : env.port s.network.port with
  | error n =>
      rw [hport] at h
      cases h
  | ok port =>
      rw [hport] at h
      obtain ⟨hfits, hport⟩ := Environment.port_eq_ok.mp hport
      refine ⟨hfits, ?_⟩
      have horder :=
        env.word?_fst "global.dispatch.queue_order" "IKEV2D_GLOBAL__DISPATCH__QUEUE_ORDER"
        Discipline.parse
      have hmode :=
        env.word?_fst "global.dispatch.expiry_mode" "IKEV2D_GLOBAL__DISPATCH__EXPIRY_MODE"
        ExpiryMode.parse
      rcases hw : env.word? "global.dispatch.queue_order" "IKEV2D_GLOBAL__DISPATCH__QUEUE_ORDER"
        Discipline.parse
        with ⟨order, orderWarnings⟩
      rcases hw' : env.word? "global.dispatch.expiry_mode" "IKEV2D_GLOBAL__DISPATCH__EXPIRY_MODE"
        ExpiryMode.parse
        with ⟨mode, modeWarnings⟩
      rw [hw] at h horder
      rw [hw'] at h hmode
      obtain rfl := congrArg Prod.fst (Except.ok.inj h)
      dsimp only at horder hmode
      simp [Over, Section.all, environment, NetworkSettings.all, NetIoSettings.all,
        DispatchSettings.all, RuntimeSettings.all, LoggingSettings.all, TelemetrySettings.all,
        Environment.toNat_count, hport, horder, hmode]
      rfl

theorem override_ok (h : env.PortFits) (s : Settings) : ∃ s' ws, env.override s = .ok (s', ws) := by
  obtain ⟨port, hport⟩ : ∃ port, env.port s.network.port = .ok port := by
    rw [Environment.port]
    cases hn : env.int? "global.network.port" with
    | none => exact ⟨_, rfl⟩
    | some n => exact ⟨_, if_pos (h n hn)⟩
  rw [Environment.override, hport]
  exact ⟨_, _, rfl⟩

theorem over_flags (given : Flags) (s : Settings) : (flags given).Over s (given.override s).1 := by
  have hlevel : (given.override s).1.logging.level =
      (given.logLevel.bind fun t => (LogLevel.parse t).toOption).getD s.logging.level := by
    rw [Flags.override]
    cases given.logLevel with
    | none => rfl
    | some t =>
        rw [Option.map_some, Option.bind_some]
        cases LogLevel.parse t <;> rfl
  simp [Over, Section.all, flags, hlevel, NetworkSettings.all, NetIoSettings.all,
    DispatchSettings.all, RuntimeSettings.all, LoggingSettings.all, TelemetrySettings.all]
  simp [Flags.override]

end Layer

/-! ## Loads -/

namespace Load

variable {α β : Type} {m : Load α} {f : α → Load β} {P : α → Prop} {Q : α → β → Prop}

/-- What a load ends with, whatever has been warned of before. -/
def Yields (m : Load α) (P : α → Prop) : Prop := ∀ ws a, (m.run.run ws).1 = .ok a ↔ P a

theorem yields_pure (a : α) : (pure a : Load α).Yields (· = a) := by
  intro ws b
  exact ⟨fun h => (Except.ok.inj h).symm, fun h => congrArg Except.ok h.symm⟩

theorem yields_throw (e : LoadError) : (throw e : Load α).Yields fun _ => False :=
  fun _ _ => ⟨nofun, nofun⟩

theorem yields_warn (warnings : List Warning) : (warn warnings).Yields fun _ => True :=
  fun _ _ => ⟨fun _ => trivial, fun _ => rfl⟩

theorem Yields.bind (hm : m.Yields P) (hf : ∀ a, P a → (f a).Yields (Q a)) :
    (m >>= f).Yields fun b => ∃ a, P a ∧ Q a b := by
  intro ws b
  have hm := hm ws
  rw [ExceptT.run_bind, StateT.run_bind]
  generalize m.run.run ws = r at hm ⊢
  rcases r with ⟨e | a, ws'⟩
  · refine ⟨nofun, fun ⟨a, ha, _⟩ => ?_⟩
    cases (hm a).mpr ha
  · have ha : P a := (hm a).mp rfl
    refine (hf a ha ws' b).trans ⟨fun hb => ⟨a, ha, hb⟩, fun ⟨a', ha', hb⟩ => ?_⟩
    obtain rfl := Except.ok.inj ((hm a').mpr ha')
    exact hb

theorem Yields.congr {P' : α → Prop} (hm : m.Yields P) (h : ∀ a, P a ↔ P' a) : m.Yields P' :=
  fun ws a => (hm ws a).trans (h a)

end Load

namespace Configuration

open Load

/-- The document that a path gives: an empty one if there is no file, and else the text, if it can
be read. -/
def document? (processors : UInt64) (files : Files) (path : String) : Option Tree :=
  match files.find? path with
  | none => some (.table [])
  | some (.text content) =>
    (Toml.parse? content).filter fun doc => (Settings.read processors Tree.tomlFormat doc).isSome
  | _ => none

/-- What a path gives can be read as settings. -/
theorem read_document {processors : UInt64} {files : Files} {path : String} {doc : Tree}
    (h : document? processors files path = some doc) :
    ∃ s, Settings.read processors Tree.tomlFormat doc = some s := by
  unfold document? at h
  split at h
  · obtain rfl := Option.some.inj h
    exact ⟨_, rfl⟩
  · exact Option.isSome_iff_exists.mp (Option.filter_eq_some_iff.mp h).2
  · cases h

theorem yields_ofFile (processors : UInt64) (files : Files) (path : String) :
    (ofFile processors files path).Yields fun c =>
      ∃ doc s, document? processors files path = some doc ∧
        (Layer.file doc).Over (.default processors) s ∧ c = ⟨s, some path, none⟩ := by
  have hread : ∀ doc s, Settings.read processors Tree.tomlFormat doc = some s →
      ∀ c : Configuration, c = ⟨s, some path, none⟩ ↔
        ∃ doc' s', some doc = some doc' ∧ (Layer.file doc').Over (.default processors) s' ∧
          c = ⟨s', some path, none⟩ := by
    intro doc s h c
    have hover := Layer.over_file h
    constructor
    · rintro rfl
      exact ⟨doc, s, rfl, hover, rfl⟩
    · rintro ⟨doc', s', hdoc, hover', rfl⟩
      obtain rfl := Option.some.inj hdoc
      rw [hover'.unique hover]
  have hthrow : ∀ e : LoadError,
      (throw e >>=
        fun settings => pure ⟨settings, some path, none⟩ : Load Configuration).Yields fun c =>
        ∃ doc s, none = some doc ∧ (Layer.file doc).Over (.default processors) s ∧
          c = ⟨s, some path, none⟩ := by
    intro e
    apply ((yields_throw e).bind fun _ _ => yields_pure _).congr
    intro c
    constructor
    · rintro ⟨_, hf, _⟩
      exact hf.elim
    · rintro ⟨_, _, hnone, _⟩
      cases hnone
  rw [ofFile, document?]
  cases files.find? path with
  | none =>
      apply ((yields_warn _).bind fun _ _ => yields_pure
        (⟨.default processors, some path, none⟩ : Configuration)).congr
      intro c
      rw [← hread (.table []) (.default processors) rfl c]
      exact ⟨fun ⟨_, _, hc⟩ => hc, fun hc => ⟨(), trivial, hc⟩⟩
  | some entry =>
      cases entry with
      | text content =>
          dsimp only
          cases hdoc : Toml.parse? content with
          | none => exact hthrow _
          | some doc =>
              rw [Option.bind_some]
              cases hs : Settings.read processors Tree.tomlFormat doc with
              | none =>
                  rw [Option.filter_some_neg (by simp [hs])]
                  exact hthrow _
              | some s =>
                  rw [Option.filter_some_pos (by simp [hs])]
                  exact (yields_pure (⟨s, some path, none⟩ : Configuration)).congr (hread doc s hs)
      | binary | directory => exact hthrow _

theorem yields_overEnvironment (c : Configuration) (env : Environment) :
    (c.overEnvironment env).Yields fun c' =>
      env.PortFits ∧ ∃ s, (Layer.environment env).Over c.settings s ∧
        c' = { c with settings := s } := by
  rw [overEnvironment]
  cases ho : env.override c.settings with
  | error n =>
      apply (yields_throw _).congr
      intro c'
      refine ⟨False.elim, fun ⟨hfits, _⟩ => ?_⟩
      obtain ⟨s', ws, hok⟩ := Layer.override_ok hfits c.settings
      cases hok.symm.trans ho
  | ok made =>
      obtain ⟨s, ws⟩ := made
      obtain ⟨hfits, hover⟩ := Layer.over_environment ho
      apply ((yields_warn ws).bind fun _ _ => yields_pure { c with settings := s }).congr
      intro c'
      constructor
      · rintro ⟨-, -, rfl⟩
        exact ⟨hfits, s, hover, rfl⟩
      · rintro ⟨-, s', hover', rfl⟩
        exact ⟨(), trivial, by rw [hover'.unique hover]⟩

theorem yields_overFlags (c : Configuration) (flags : Flags) :
    (c.overFlags flags).Yields fun c' =>
      ∃ s, (Layer.flags flags).Over c.settings s ∧
        c' = { c with settings := s, overrides := some flags } := by
  have hover := Layer.over_flags flags c.settings
  apply ((yields_warn (flags.override c.settings).2).bind fun _ _ =>
    yields_pure { c with settings := (flags.override c.settings).1, overrides := some flags }).congr
  intro c'
  constructor
  · rintro ⟨-, -, rfl⟩
    exact ⟨_, hover, rfl⟩
  · rintro ⟨s', hover', rfl⟩
    exact ⟨(), trivial, by rw [hover'.unique hover]⟩

theorem yields_validated (c : Configuration) :
    c.validated.Yields fun c' => c.settings.check.errors = [] ∧ c' = c := by
  rw [validated]
  split
  · rename_i hvalid
    apply ((yields_warn _).bind fun _ _ => yields_pure c).congr
    intro c'
    exact ⟨fun ⟨_, _, hc⟩ => ⟨hvalid, hc⟩, fun ⟨_, hc⟩ => ⟨(), trivial, hc⟩⟩
  · rename_i hinvalid
    apply ((yields_warn _).bind fun _ _ => yields_throw _).congr
    intro c'
    exact ⟨fun ⟨_, _, hf⟩ => hf.elim, fun ⟨hvalid, _⟩ => absurd hvalid hinvalid⟩

/-- Settings hold for every setting what flag, variable or document give, in this order, and else
the default, which for the threads of the pool is the number of processors. -/
def Layered (flags : Flags) (env : Environment) (doc : Tree) (s : Settings) : Prop :=
  ∀ p ∈ Section.all, ∀ k ∈ p.settings, k.get (p.get s) =
    ((Layer.flags flags p k).or ((Layer.environment env p k).or (Layer.file doc p k))).getD
      (k.get (p.get (.default env.processors)))

section Steps

variable {flags : Flags} {env : Environment} {doc : Tree} {s₁ s₂ s : Settings}

theorem Layered.of_steps (h₁ : (Layer.file doc).Over (.default env.processors) s₁)
    (h₂ : (Layer.environment env).Over s₁ s₂) (h₃ : (Layer.flags flags).Over s₂ s) :
    Layered flags env doc s := (h₁.trans h₂).trans h₃

/-- A document that can be read is a first step, and the others can be taken from wherever
it leads. -/
theorem exists_steps (hdoc : ∃ s, Settings.read env.processors Tree.tomlFormat doc = some s)
    (hport : env.PortFits) (flags : Flags) :
    ∃ s₁ s₂ s, (Layer.file doc).Over (.default env.processors) s₁ ∧
      (Layer.environment env).Over s₁ s₂ ∧ (Layer.flags flags).Over s₂ s := by
  obtain ⟨s₁, hread⟩ := hdoc
  obtain ⟨s₂, ws, hoverride⟩ := Layer.override_ok hport s₁
  exact ⟨s₁, s₂, _, Layer.over_file hread, (Layer.over_environment hoverride).2,
    Layer.over_flags flags s₂⟩

end Steps

/-- A configuration is made if and only if there is no file or one that can be read, the variable
for the port is no number out of range, and the settings are valid in which each layer gives way to
the one above it. It holds these settings, and it is made again from what it keeps. -/
theorem made_of_layers (files : Files) (env : Environment) (flags : Flags) :
    (∀ ws c, ((resolve files env flags).run.run ws).1 = .ok c ↔
      ∃ doc s, document? env.processors files flags.config = some doc ∧ env.PortFits ∧
        Layered flags env doc s ∧ s.check.errors = [] ∧ c = ⟨s, some flags.config, some flags⟩) ∧
    (∀ doc, document? env.processors files flags.config = some doc → env.PortFits →
      ∃! s, Layered flags env doc s) ∧
    load files flags.config env (some flags) = resolve files env flags ∧
    ∀ ws c path, ((resolve files env flags).run.run ws).1 = .ok c → c.source = some path →
      load files path env c.overrides = resolve files env flags := by
  have hmade : (resolve files env flags).Yields fun c =>
      ∃ doc s, document? env.processors files flags.config = some doc ∧ env.PortFits ∧
        Layered flags env doc s ∧ s.check.errors = [] ∧
        c = ⟨s, some flags.config, some flags⟩ := by
    apply ((yields_ofFile env.processors files flags.config).bind fun c₁ _ =>
      (yields_overEnvironment c₁ env).bind fun c₂ _ =>
      (yields_overFlags c₂ flags).bind fun c₃ _ => yields_validated c₃).congr
    intro c
    constructor
    · rintro ⟨-, ⟨doc, s₁, hdoc, h₁, rfl⟩, -, ⟨hport, s₂, h₂, rfl⟩, -, ⟨s₃, h₃, rfl⟩, hvalid, rfl⟩
      exact ⟨doc, s₃, hdoc, hport, .of_steps h₁ h₂ h₃, hvalid, rfl⟩
    · rintro ⟨doc, s, hdoc, hport, hs, hvalid, rfl⟩
      obtain ⟨s₁, s₂, s', h₁, h₂, h₃⟩ := exists_steps (read_document hdoc) hport flags
      obtain rfl := Layer.Over.unique hs (Layered.of_steps h₁ h₂ h₃)
      exact ⟨_, ⟨doc, s₁, hdoc, h₁, rfl⟩, _, ⟨hport, s₂, h₂, rfl⟩, _, ⟨s, h₃, rfl⟩, hvalid, rfl⟩
  refine ⟨hmade, ?_, rfl, ?_⟩
  · intro doc hdoc hport
    obtain ⟨s₁, s₂, s, h₁, h₂, h₃⟩ := exists_steps (read_document hdoc) hport flags
    have hs := Layered.of_steps h₁ h₂ h₃
    exact ⟨s, hs, fun _ hs' => Layer.Over.unique hs' hs⟩
  · intro ws c path hc hpath
    obtain ⟨doc, s, -, -, -, -, rfl⟩ := (hmade ws c).mp hc
    obtain rfl := Option.some.inj hpath
    rfl

end Configuration

end SessionDispatch
