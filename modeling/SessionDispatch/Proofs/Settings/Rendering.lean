import SessionDispatch.Proofs.Settings.Sections
import SessionDispatch.Proofs.Toml.Documents

/-!
# Settings are read back

What a field shows is what it is set from, and a field that is not written has its default. So the
document that settings are written to gives the same settings again, whatever texts they hold and
however many processors there are.
-/

namespace SessionDispatch

open Toml (IsBare Fits NamedPairs)

theorem Tree.eq_scalar {t : Tree} {v : Scalar} (h : t.scalar? = some v) : t = .scalar v := by
  cases t with
  | scalar w => exact congrArg Tree.scalar (Option.some.inj h)
  | _ => cases h

/-! ## One field -/

namespace Field

variable {σ : Type} {format : Tree.Format} {name : String} {default : σ}

/-- A field takes what it shows of any record, and a record does not change by what it shows itself.
Only a default is not written. -/
structure Restores (f : Field σ) (format : Tree.Format) (default : σ) : Prop where
  same : ∀ s, f.set format default (f.get s) s = some s
  takes : ∀ s s', (f.set format default (f.get s) s').isSome
  absent : ∀ s, (f.get s).scalar? = none → f.get s = f.get default

theorem restores_of_eq_map {f : Field σ} {β : Type} {decode : Tree → Option β} {put : β → σ → σ}
    {get : σ → β} (hf : ∀ t s, f.set format default t s = (decode t).map (put · s))
    (hget : ∀ s, decode (f.get s) = some (get s)) (hput : ∀ s, put (get s) s = s)
    (habsent : ∀ s, (f.get s).scalar? = none → f.get s = f.get default) :
    f.Restores format default where
  same s := by rw [hf, hget, Option.map_some, hput]
  takes s s' := by rw [hf, hget]; rfl
  absent := habsent

theorem nat?_toNat {limit n : Nat} (h : n ≤ limit) : (Tree.scalar (.int n)).nat? limit = some n :=
  if_pos h

variable (format name default)

@[simp] theorem restores_bool {get : σ → Bool} {put : Bool → σ → σ}
    (hput : ∀ s, put (get s) s = s) :
    (bool name get put).Restores format default :=
  restores_of_eq_map (fun _ _ => rfl) (fun _ => rfl) hput fun _ => nofun

@[simp] theorem restores_text {get : σ → String} {put : String → σ → σ}
    (hput : ∀ s, put (get s) s = s) :
    (text name get put).Restores format default :=
  restores_of_eq_map (fun _ _ => rfl) (fun _ => rfl) hput fun _ => nofun

@[simp] theorem restores_word {β : Type} {ofName? : String → Option β} {nameOf : β → String}
    {get : σ → β} {put : β → σ → σ} (hword : ∀ b, ofName? (nameOf b) = some b)
    (hput : ∀ s, put (get s) s = s) :
    (word name ofName? nameOf get put).Restores format default :=
  restores_of_eq_map (fun _ _ => rfl) (fun s => hword (get s)) hput fun _ => nofun

@[simp] theorem restores_count {get : σ → UInt64} {put : UInt64 → σ → σ}
    (hput : ∀ s, put (get s) s = s) :
    (count name get put).Restores format default := by
  have hget : ∀ s, ((count name get put).get s).nat? (UInt64.size - 1) = some (get s).toNat :=
    fun s => nat?_toNat (Nat.le_pred_of_lt (get s).toNat_lt)
  refine restores_of_eq_map (fun _ _ => rfl) hget (fun s => ?_) fun _ => nofun
  rw [Nat.toUInt64, UInt64.ofNat_toNat, hput]

@[simp] theorem restores_port {get : σ → UInt16} {put : UInt16 → σ → σ}
    (hput : ∀ s, put (get s) s = s) :
    (port name get put).Restores format default := by
  have hget : ∀ s, ((port name get put).get s).nat? 0xffff = some (get s).toNat :=
    fun s => nat?_toNat (Nat.le_pred_of_lt (get s).toNat_lt)
  refine restores_of_eq_map (fun _ _ => rfl) hget (fun s => ?_) fun _ => nofun
  rw [Nat.toUInt16, UInt16.ofNat_toNat, hput]

/-- A count that is absent is not written, so it must be absent by default. -/
@[simp] theorem restores_optionalCount {get : σ → Option UInt64} {put : Option UInt64 → σ → σ}
    (hput : ∀ s, put (get s) s = s) (hdefault : get default = none) :
    (optionalCount name get put).Restores format default := by
  have hget : ∀ s, ((optionalCount name get put).get s).optionalNat? (UInt64.size - 1) =
      some ((get s).map UInt64.toNat) := by
    intro s
    rw [optionalCount]
    dsimp only
    cases get s with
    | none => rfl
    | some n => exact congrArg (Option.map some) (nat?_toNat (Nat.le_pred_of_lt n.toNat_lt))
  refine restores_of_eq_map (set_optionalCount get put) hget (fun s => ?_) fun s habsent => ?_
  · rw [map_toUInt64_toNat, hput]
  · rw [optionalCount] at habsent ⊢
    dsimp only at habsent ⊢
    rw [hdefault]
    cases hs : get s with
    | none => rfl
    | some n =>
        rw [hs] at habsent
        cases habsent

end Field

/-! ## Records -/

namespace Record

variable {σ : Type} {r : Record σ} {format : Tree.Format} {default s : σ} {f : Field σ}
variable {name : String}

def entries (r : Record σ) (s : σ) : List (String × Tree) :=
  (r.write s).map fun pair => (pair.1, .scalar pair.2)

theorem mem_write {pair : String × Scalar} (h : pair ∈ r.write s) :
    ∃ f ∈ r, f.name = pair.1 ∧ (f.get s).scalar? = some pair.2 := by
  obtain ⟨f, hf, hpair⟩ := List.mem_filterMap.mp h
  obtain ⟨v, hv, rfl⟩ := Option.map_eq_some_iff.mp hpair
  exact ⟨f, hf, rfl, hv⟩

theorem nodup_write (hr : r.names.Nodup) (s : σ) : ((r.write s).map Prod.fst).Nodup := by
  refine List.Sublist.nodup ?_ hr
  unfold write names
  induction r with
  | nil => exact .slnil
  | cons f r ih =>
      obtain ⟨-, hr⟩ := List.nodup_cons.mp hr
      rw [List.filterMap_cons, List.map_cons]
      cases (f.get s).scalar? with
      | none => exact (ih hr).cons _
      | some v => exact (ih hr).cons_cons _

theorem nodup_entries (hr : r.names.Nodup) (s : σ) : ((r.entries s).map Prod.fst).Nodup := by
  rw [entries, List.map_map]
  exact nodup_write hr s

theorem mem_entries {v : Scalar} (hf : f ∈ r) (hv : (f.get s).scalar? = some v) :
    (f.name, .scalar v) ∈ r.entries s := by
  have hwrite : (f.name, v) ∈ r.write s := List.mem_filterMap.mpr ⟨f, hf, by rw [hv]; rfl⟩
  exact List.mem_map.mpr ⟨_, hwrite, rfl⟩

/-- Entries are read if each of them has a field that takes it. -/
theorem read_isSome (hr : r.names.Nodup) {entries : List (String × Tree)}
    (he : ∀ entry ∈ entries, ∃ f ∈ r, f.name = entry.1 ∧
      ∀ u, (f.set format default entry.2 u).isSome) :
    ∃ s, r.read format default (.table entries) = some s := by
  suffices ∀ start, ∃ s, entries.foldlM (r.setEntry format default) start = some s from this default
  intro start
  induction entries generalizing start with
  | nil => exact ⟨start, rfl⟩
  | cons entry entries ih =>
      obtain ⟨⟨f, hf, hname, htakes⟩, he⟩ := List.forall_mem_cons.mp he
      obtain ⟨u, hu⟩ := Option.isSome_iff_exists.mp (htakes start)
      have hset : r.setEntry format default start entry = some u := by
        rw [setEntry, ← hname, find?_name hr hf]
        exact hu
      obtain ⟨s, hs⟩ := ih he u
      refine ⟨s, ?_⟩
      rw [List.foldlM_cons, hset]
      exact hs

theorem part?_of_mem {entries : List (String × Tree)} (hn : (entries.map Prod.fst).Nodup)
    {entry : String × Tree} (he : entry ∈ entries) :
    r.part? entry.1 (.table entries) = some entry.2 := by
  rw [part?, Tree.parts]
  induction entries with
  | nil => cases he
  | cons first entries ih =>
      obtain ⟨hfirst, hn⟩ := List.nodup_cons.mp hn
      rw [List.reverse_cons, List.lookup_append]
      rcases List.mem_cons.mp he with rfl | he
      · have hnone : entries.reverse.lookup entry.1 = none := by
          refine List.lookup_eq_none_iff.mpr fun other ho => bne_iff_ne.mpr fun hname => hfirst ?_
          exact List.mem_map.mpr ⟨other, List.mem_reverse.mp ho, hname.symm⟩
        rw [hnone, Option.none_or]
        exact List.lookup_cons_self
      · rw [ih hn he, Option.some_or]

theorem part?_of_not_mem {entries : List (String × Tree)} (hn : name ∉ entries.map Prod.fst) :
    r.part? name (.table entries) = none := by
  refine List.lookup_eq_none_iff.mpr fun entry he => bne_iff_ne.mpr fun hname => hn ?_
  exact List.mem_map.mpr ⟨entry, List.mem_reverse.mp he, hname.symm⟩

/-- A record is read back from its entries, if all of it can be seen through settings. -/
theorem read_entries {settings : List (Setting σ)} (hin : Setting.InFields settings r)
    (hall : Setting.Complete settings) (hr : r.names.Nodup)
    (hf : ∀ f ∈ r, f.Restores Tree.tomlFormat default) (s : σ) :
    r.read Tree.tomlFormat default (.table (r.entries s)) = some s := by
  obtain ⟨s', hs'⟩ : ∃ s', r.read Tree.tomlFormat default (.table (r.entries s)) = some s' := by
    refine read_isSome hr fun entry he => ?_
    obtain ⟨pair, hpair, rfl⟩ := List.mem_map.mp he
    obtain ⟨f, hmem, hname, hv⟩ := mem_write hpair
    exact ⟨f, hmem, hname, fun u => Tree.eq_scalar hv ▸ (hf f hmem).takes s u⟩
  -- What was read is compared with what was written setting by setting.
  suffices s' = s by rw [hs', this]
  refine hall s' s fun k hk => ?_
  obtain ⟨f, hmem, hname⟩ := List.mem_map.mp (hin default k hk).mem
  have hreads := (hin default k hk).reads _ _ hs'
  have hshown : ∀ u, k.decode (f.get u) = some (k.get u) := fun u =>
    (hin default k hk).own f hmem hname _ _ _ ((hf f hmem).same u)
  dsimp only at hreads
  cases hv : (f.get s).scalar? with
  | some v =>
      have hpart : r.part? k.name (.table (r.entries s)) = some (f.get s) := by
        rw [Tree.eq_scalar hv, ← hname]
        exact part?_of_mem (nodup_entries hr s) (mem_entries hmem hv)
      rw [hreads, hpart, Option.bind_some, hshown, Option.getD_some]
  | none =>
      have hpart : r.part? k.name (.table (r.entries s)) = none := by
        refine part?_of_not_mem fun hwritten => ?_
        obtain ⟨entry, he, hentry⟩ := List.mem_map.mp hwritten
        obtain ⟨pair, hpair, rfl⟩ := List.mem_map.mp he
        obtain ⟨g, hg, hother, hsome⟩ := mem_write hpair
        obtain rfl :=
          List.inj_on_of_nodup_map hr hmem hg (hname.trans (hentry.symm.trans hother.symm))
        rw [hv] at hsome
        cases hsome
      have hdefault := hshown default
      rw [← (hf f hmem).absent s hv, hshown] at hdefault
      rw [hreads, hpart, Option.bind_none, Option.getD_none]
      exact (Option.some.inj hdefault).symm

end Record

/-! ## Sections -/

/-- The names of a section need no quotes, and its fields restore what they are read from. -/
structure Section.Restores (p : Section) (processors : UInt64) : Prop where
  name : IsBare p.name
  distinct : p.fields.names.Nodup
  bare : ∀ f ∈ p.fields, IsBare f.name
  fields : ∀ f ∈ p.fields, f.Restores Tree.tomlFormat (p.get (.default processors))

theorem restores_section (processors : UInt64) : ∀ p ∈ Section.all, p.Restores processors := by
  simp only [Section.all, List.forall_mem_cons]
  refine ⟨?_, ?_, ?_, ?_, ?_, ?_, List.forall_mem_nil _⟩
  · refine ⟨?_, ?_, ?_, ?_⟩ <;> simp [IsBare, Toml.isBareKey, Record.names, NetworkSettings.fields]
  · refine ⟨?_, ?_, ?_, ?_⟩ <;>
      simp [IsBare, Toml.isBareKey, Record.names, NetIoSettings.fields, Settings.default]
  · refine ⟨?_, ?_, ?_, ?_⟩ <;> simp [IsBare, Toml.isBareKey, Record.names, DispatchSettings.fields]
  · refine ⟨?_, ?_, ?_, ?_⟩ <;> simp [IsBare, Toml.isBareKey, Record.names, RuntimeSettings.fields]
  · refine ⟨?_, ?_, ?_, ?_⟩ <;> simp [IsBare, Toml.isBareKey, Record.names, LoggingSettings.fields]
  · refine ⟨?_, ?_, ?_, ?_⟩ <;>
      simp [IsBare, Toml.isBareKey, Record.names, TelemetrySettings.fields]

namespace Settings

/-- Every number among the settings is one that a document can hold. -/
def Fit (s : Settings) : Prop := ∀ b ∈ s.blocks, ∀ pair ∈ b.pairs, Fits pair.2

instance : DecidablePred Fit := fun s => inferInstanceAs (Decidable (∀ b ∈ s.blocks, _))

def pairs (s : Settings) (p : Section) : NamedPairs := (p.name, p.fields.write (p.get s))

theorem blocks_eq (s : Settings) :
    s.blocks = (Section.all.map s.pairs).map (NamedPairs.block "global") := rfl

variable {s : Settings}

theorem Fit.writable (hs : s.Fit) : ∀ q ∈ Section.all.map s.pairs, q.Writable := by
  intro q hq
  obtain ⟨p, hp, rfl⟩ := List.mem_map.mp hq
  have hr := restores_section 1 p hp
  refine ⟨hr.name, Record.nodup_write hr.distinct _, fun pair hpair => ⟨?_, ?_⟩⟩
  · obtain ⟨f, hf, hname, -⟩ := Record.mem_write hpair
    exact hname ▸ hr.bare f hf
  · rw [Fit, blocks_eq] at hs
    exact hs _ (List.mem_map_of_mem hq) pair hpair

def doc (s : Settings) : Tree :=
  .table [("global", .table ((Section.all.map s.pairs).map NamedPairs.tree))]

theorem parse?_render (hs : s.Fit) : Toml.parse? s.render = some s.doc := by
  rw [render, blocks_eq]
  refine Toml.parse?_render_sections (by simp [IsBare, Toml.isBareKey])
    (by simp [Section.all]) hs.writable ?_
  simp [Section.all, pairs]

/-- Each section has a field that takes whatever the section can be read from. -/
theorem exists_field (d : Settings) : ∀ p ∈ Section.all, ∃ f ∈ fields, f.name = p.name ∧
    ∀ t s, (p.fields.read Tree.tomlFormat (p.get d) t).isSome →
      (f.set Tree.tomlFormat d t s).isSome := by
  simp [Section.all, fields, Field.record]

/-- Settings are read back from the document they are written to. -/
theorem read_doc (processors : UInt64) (s : Settings) :
    read processors Tree.tomlFormat s.doc = some s := by
  set d := default processors with hd
  have hread : ∀ p ∈ Section.all,
      p.fields.read Tree.tomlFormat (p.get d) (s.pairs p).tree.2 = some (p.get s) := by
    intro p hp
    have hr := restores_section processors p hp
    exact Record.read_entries p.inFields p.complete hr.distinct hr.fields (p.get s)
  have hnames : fields.names.Nodup := by simp [fields, Record.names]
  have hdistinct : (((Section.all.map s.pairs).map NamedPairs.tree).map Prod.fst).Nodup := by
    simp [Section.all, pairs, NamedPairs.tree]
  obtain ⟨s', hs'⟩ : ∃ s', fields.read Tree.tomlFormat d
      (.table ((Section.all.map s.pairs).map NamedPairs.tree)) = some s' := by
    refine Record.read_isSome hnames fun entry he => ?_
    obtain ⟨q, hq, rfl⟩ := List.mem_map.mp he
    obtain ⟨p, hp, rfl⟩ := List.mem_map.mp hq
    obtain ⟨f, hf, hname, htakes⟩ := exists_field d p hp
    exact ⟨f, hf, hname, fun u => htakes _ u (by rw [hread p hp]; rfl)⟩
  have heq : s' = s := by
    refine ext_sections fun p hp => ?_
    have hmem : (s.pairs p).tree ∈ (Section.all.map s.pairs).map NamedPairs.tree :=
      List.mem_map_of_mem (List.mem_map_of_mem hp)
    have hpart : fields.part? p.name _ = _ := Record.part?_of_mem hdistinct hmem
    have hget := (keeps_section d p hp).reads _ _ hs'
    dsimp only at hget
    rw [hget, hpart, Option.bind_some, hread p hp, Option.getD_some]
  rw [heq] at hs'
  have hset : document.setEntry Tree.tomlFormat d d
      ("global", .table ((Section.all.map s.pairs).map NamedPairs.tree)) = some s :=
    congrArg (Option.map _) hs'
  rw [read, ← hd, doc, Record.read, List.foldlM_cons, hset]
  rfl

end Settings

namespace Configuration

/-- A configuration that is written to a file is loaded from it, with the file as its source and
without a warning. -/
theorem ofFile_render (c : Configuration) (hc : c.settings.Fit) (processors : UInt64)
    {files : Files} {path : String} (hfile : files.find? path = some (.text c.settings.render))
    (ws : List Warning) :
    (ofFile processors files path).run.run ws =
      (.ok { settings := c.settings, source := some path }, ws) := by
  have hread : (Toml.parse? c.settings.render).bind (Settings.read processors Tree.tomlFormat) =
      some c.settings := by
    rw [Settings.parse?_render hc, Option.bind_some, Settings.read_doc]
  rw [ofFile, hfile]
  dsimp only
  rw [hread]
  rfl

/-- A configuration with texts that each need another quoting, one of two optional sizes, and words
other than the default ones. -/
def quoted : Configuration where
  settings :=
    { network := { host4 := "", host6 := "\"fe80::1\"%\\eth0", port := 0 }
      netio := { socketSendBufferSize := some 8192 }
      dispatch := { queueOrder := .lifo, expiryMode := .sliding }
      runtime := { poolThreads := 2, threadName := "Überwachung\n\x27\x27\x27\"\"\"\x00\x7f" }
      logging := { level := .trace }
      telemetry := { serviceName := "a \\\n \"b\"", exportIntervalSecs := 9223372036854775807 } }

theorem ofFile_render_quoted :
    quoted.settings.Fit ∧
      Files.find? [(["daemon.toml"], .text quoted.settings.render)] "daemon.toml" =
        some (.text quoted.settings.render) ∧
      (ofFile 8 [(["daemon.toml"], .text quoted.settings.render)] "daemon.toml").run.run [] =
        (.ok { settings := quoted.settings, source := some "daemon.toml" }, []) := by
  have hfit : quoted.settings.Fit := by decide
  have hfile : Files.find? [(["daemon.toml"], .text quoted.settings.render)] "daemon.toml" =
      some (.text quoted.settings.render) := by
    have hsplit : "daemon.toml".splitOn "/" = ["daemon.toml"] := by
      simp +decide [String.splitOn, String.splitOnAux]
    generalize quoted.settings.render = content
    simp +decide only [Files.find?, hsplit, Files.walk, Files.at?]
    rfl
  exact ⟨hfit, hfile, ofFile_render quoted hfit 8 hfile []⟩

end Configuration

end SessionDispatch
