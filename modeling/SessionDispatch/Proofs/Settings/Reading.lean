import Mathlib.Data.List.Induction
import SessionDispatch.Proofs.Run
import SessionDispatch.Settings.Sections

/-!
# What a record takes from a tree

Every field of a record is set by what the tree gives for it last, and has its default where the
tree gives nothing.
-/

namespace SessionDispatch

namespace Tree

/-- What a tree gives for parts of a record: its entries, or its items in the order of the names. -/
def parts (names : List String) : Tree → List (String × Tree)
  | table entries => entries
  | list items => names.zip items
  | _ => []

def optionalNat? (limit : Nat) : Tree → Option (Option Nat)
  | null => some none
  | t => (t.nat? limit).map some

theorem nat?_le {limit n : Nat} {t : Tree} (h : t.nat? limit = some n) : n ≤ limit := by
  unfold nat? at h
  split at h
  · split at h
    · obtain rfl := Option.some.inj h
      assumption
    · cases h
  · cases h

theorem optionalNat?_le {limit n : Nat} {t : Tree} (h : t.optionalNat? limit = some (some n)) :
    n ≤ limit := by
  cases t with
  | scalar v =>
      change ((scalar v).nat? limit).map some = _ at h
      obtain ⟨m, hm, heq⟩ := Option.map_eq_some_iff.mp h
      obtain rfl := Option.some.inj heq
      exact nat?_le hm
  | _ => cases h

end Tree

/-! ## One field -/

namespace Field

variable {σ : Type} {format : Tree.Format} {default : σ} {name : String} {P : Tree → σ → σ → Prop}

/-- What holds whenever a field is set from a tree. -/
def Sets (f : Field σ) (format : Tree.Format) (default : σ) (P : Tree → σ → σ → Prop) : Prop :=
  ∀ t s s', f.set format default t s = some s' → P t s s'

theorem sets_iff_of_eq_map {f : Field σ} {β : Type} {decode : Tree → Option β} {put : β → σ → σ}
    (hf : ∀ t s, f.set format default t s = (decode t).map (put · s)) :
    f.Sets format default P ↔ ∀ t s v, decode t = some v → P t s (put v s) := by
  constructor
  · intro h t s v hv
    apply h t s (put v s)
    rw [hf, hv, Option.map_some]
  · intro h t s s' hs
    rw [hf] at hs
    obtain ⟨v, hv, rfl⟩ := Option.map_eq_some_iff.mp hs
    exact h t s v hv

@[simp] theorem sets_bool {get : σ → Bool} {put : Bool → σ → σ} :
    (bool name get put).Sets format default P ↔ ∀ t s v, t.bool? = some v → P t s (put v s) :=
  sets_iff_of_eq_map fun _ _ => rfl

@[simp] theorem sets_text {get : σ → String} {put : String → σ → σ} :
    (text name get put).Sets format default P ↔ ∀ t s v, t.text? = some v → P t s (put v s) :=
  sets_iff_of_eq_map fun _ _ => rfl

@[simp] theorem sets_word {β : Type} {ofName? : String → Option β} {nameOf : β → String}
    {get : σ → β} {put : β → σ → σ} :
    (word name ofName? nameOf get put).Sets format default P ↔
      ∀ t s v, (t.word? format).bind ofName? = some v → P t s (put v s) :=
  sets_iff_of_eq_map fun _ _ => rfl

@[simp] theorem sets_record {τ : Type} {fields : Record τ} {get : σ → τ} {put : τ → σ → σ} :
    (record name fields get put).Sets format default P ↔
      ∀ t s v, fields.read format (get default) t = some v → P t s (put v s) :=
  sets_iff_of_eq_map fun _ _ => rfl

@[simp] theorem sets_count {get : σ → UInt64} {put : UInt64 → σ → σ} :
    (count name get put).Sets format default P ↔
      ∀ t s v, t.nat? (UInt64.size - 1) = some v.toNat → P t s (put v s) := by
  refine (sets_iff_of_eq_map fun _ _ => rfl).trans ?_
  constructor
  · intro h t s v hv
    simpa using h t s v.toNat hv
  · intro h t s n hn
    have hle := Tree.nat?_le hn
    apply h t s n.toUInt64
    rw [hn, Nat.toUInt64, UInt64.toNat_ofNat_of_lt' (Nat.lt_of_le_of_lt hle (by decide))]

@[simp] theorem sets_port {get : σ → UInt16} {put : UInt16 → σ → σ} :
    (port name get put).Sets format default P ↔ ∀ t s v, t.nat? 0xffff = some v.toNat →
    P t s (put v s) := by
  refine (sets_iff_of_eq_map fun _ _ => rfl).trans ?_
  constructor
  · intro h t s v hv
    simpa using h t s v.toNat hv
  · intro h t s n hn
    have hle := Tree.nat?_le hn
    apply h t s n.toUInt16
    rw [hn, Nat.toUInt16, UInt16.toNat_ofNat_of_lt' (Nat.lt_of_le_of_lt hle (by decide))]

theorem map_toUInt64_toNat (n : Option UInt64) : (n.map UInt64.toNat).map Nat.toUInt64 = n := by
  rw [Option.map_map, show Nat.toUInt64 ∘ UInt64.toNat = id from funext fun _ => UInt64.ofNat_toNat,
    Option.map_id]
  rfl

theorem set_optionalCount (get : σ → Option UInt64) (put : Option UInt64 → σ → σ) (t : Tree)
    (s : σ) :
    (optionalCount name get put).set format default t s =
      (t.optionalNat? (UInt64.size - 1)).map fun n => put (n.map Nat.toUInt64) s := by
  cases t with
  | scalar v =>
      change ((Tree.scalar v).nat? _).map _ = (((Tree.scalar v).nat? _).map some).map _
      rw [Option.map_map]
      rfl
  | _ => rfl

@[simp] theorem sets_optionalCount {get : σ → Option UInt64} {put : Option UInt64 → σ → σ} :
    (optionalCount name get put).Sets format default P ↔
      ∀ t s v, t.optionalNat? (UInt64.size - 1) = some (v.map UInt64.toNat) → P t s (put v s) := by
  refine (sets_iff_of_eq_map (set_optionalCount get put)).trans ?_
  constructor
  · intro h t s v hv
    have hput := h t s _ hv
    rwa [map_toUInt64_toNat] at hput
  · intro h t s n hn
    apply h t s (n.map Nat.toUInt64)
    rw [hn, Option.map_map]
    cases n with
    | none => rfl
    | some n =>
        have hle := Tree.optionalNat?_le hn
        rw [Option.map_some, Function.comp_apply, Nat.toUInt64,
          UInt64.toNat_ofNat_of_lt' (Nat.lt_of_le_of_lt hle (by decide))]

@[simp] theorem name_bool {get : σ → Bool} {put : Bool → σ → σ} : (bool name get put).name = name :=
  rfl

@[simp] theorem name_text {get : σ → String} {put : String → σ → σ} :
    (text name get put).name = name := rfl

@[simp] theorem name_count {get : σ → UInt64} {put : UInt64 → σ → σ} :
    (count name get put).name = name := rfl

@[simp] theorem name_port {get : σ → UInt16} {put : UInt16 → σ → σ} :
    (port name get put).name = name := rfl

@[simp] theorem name_optionalCount {get : σ → Option UInt64} {put : Option UInt64 → σ → σ} :
    (optionalCount name get put).name = name := rfl

@[simp] theorem name_word {β : Type} {ofName? : String → Option β} {nameOf : β → String}
    {get : σ → β} {put : β → σ → σ} : (word name ofName? nameOf get put).name = name := rfl

@[simp] theorem name_record {τ : Type} {fields : Record τ} {get : σ → τ} {put : τ → σ → σ} :
    (record name fields get put).name = name := rfl

end Field

/-! ## All fields -/

namespace Record

variable {σ α : Type} {r : Record σ} {format : Tree.Format} {default start s s' : σ} {name : String}
variable {t : Tree}

def names (r : Record σ) : List String := r.map (·.name)

/-- What a tree gives last under a name. -/
def part? (r : Record σ) (name : String) (t : Tree) : Option Tree :=
  (t.parts r.names).reverse.lookup name

theorem find?_name (hr : r.names.Nodup) {f : Field σ} (hf : f ∈ r) :
    r.find? (·.name = f.name) = some f := by
  induction r with
  | nil => cases hf
  | cons g r ih =>
      obtain ⟨hg, hr⟩ := List.nodup_cons.mp hr
      rcases List.mem_cons.mp hf with rfl | hf
      · exact List.find?_cons_of_pos (decide_eq_true rfl)
      · have hne : g.name ≠ f.name := by
          intro h
          exact hg (List.mem_map.mpr ⟨f, hf, h.symm⟩)
        rw [List.find?_cons_of_neg (by simpa using hne)]
        exact ih hr hf

/-- Values given in order set the same fields as entries with their names. -/
theorem foldlM_set (hr : r.names.Nodup) (pairs : List (Field σ × Tree))
    (hp : ∀ p ∈ pairs, p.1 ∈ r) :
    pairs.foldlM (fun s p => p.1.set format default p.2 s) start =
      (pairs.map fun p => (p.1.name, p.2)).foldlM (r.setEntry format default) start := by
  induction pairs generalizing start with
  | nil => rfl
  | cons p pairs ih =>
      obtain ⟨hp, hrest⟩ := List.forall_mem_cons.mp hp
      have hset : r.setEntry format default start (p.1.name, p.2) =
          p.1.set format default p.2 start := by
        rw [setEntry, find?_name hr hp]
      rw [List.map_cons, List.foldlM_cons, List.foldlM_cons, hset]
      congr 1
      funext u
      exact ih hrest

theorem foldlM_of_read (hr : r.names.Nodup) (h : r.read format default t = some s) :
    (t.parts r.names).foldlM (r.setEntry format default) default = some s := by
  cases t with
  | table entries => exact h
  | list items =>
      rw [read] at h
      split at h
      · rw [foldlM_set hr _ fun p hp => (List.of_mem_zip hp).1] at h
        rw [Tree.parts, names, List.zip_map_left]
        exact h
      · cases h
  | date => exact h
  | null | scalar _ | real => cases h

/-- One field is where `get` finds what `decode` makes of a tree, and no other field is seen
by `get`. -/
structure Keeps (r : Record σ) (format : Tree.Format) (default : σ) (name : String) (get : σ → α)
    (decode : Tree → Option α) : Prop where
  nodup : r.names.Nodup
  mem : name ∈ r.names
  own : ∀ f ∈ r, f.name = name → f.Sets format default fun t _ s' => decode t = some (get s')
  other : ∀ f ∈ r, f.name ≠ name → f.Sets format default fun _ s s' => get s' = get s

/-- What `get` finds in a record that was read is what `find` finds in the tree, if anything. -/
def Reads (r : Record σ) (format : Tree.Format) (default : σ) (get : σ → α)
    (find : Tree → Option α) : Prop :=
  ∀ t s, r.read format default t = some s → get s = (find t).getD (get default)

namespace Keeps

variable {get : σ → α} {decode : Tree → Option α} (hk : r.Keeps format default name get decode)
include hk

theorem setEntry {entry : String × Tree} (h : r.setEntry format default s entry = some s') :
    (entry.1 = name → decode entry.2 = some (get s')) ∧ (entry.1 ≠ name → get s' = get s) := by
  rw [Record.setEntry] at h
  split at h
  · rename_i f hf
    have hmem : f ∈ r := List.mem_of_find?_eq_some hf
    have hname : f.name = entry.1 := by simpa using List.find?_some hf
    constructor
    · intro he
      exact hk.own f hmem (hname.trans he) _ _ _ h
    · intro he
      exact hk.other f hmem (hname ▸ he) _ _ _ h
  · rename_i hf
    obtain rfl := Option.some.inj h
    refine ⟨fun he => ?_, fun _ => rfl⟩
    obtain ⟨f, hmem, hname⟩ := List.mem_map.mp hk.mem
    have hne := List.find?_eq_none.mp hf f hmem
    exact absurd (hname.trans he.symm) (by simpa using hne)

/-- Of the entries with a name the last is seen. -/
theorem foldlM {entries : List (String × Tree)}
    (h : entries.foldlM (r.setEntry format default) start = some s) :
    (∀ t, entries.reverse.lookup name = some t → decode t = some (get s)) ∧
      (entries.reverse.lookup name = none → get s = get start) := by
  induction entries using List.reverseRecOn generalizing s with
  | nil =>
      obtain rfl := Option.some.inj h
      exact ⟨nofun, fun _ => rfl⟩
  | append_singleton entries entry ih =>
      obtain ⟨u, hu, he⟩ := Run.foldlM_concat_eq_some h
      obtain ⟨hown, hother⟩ := hk.setEntry he
      rw [List.reverse_concat, List.lookup_cons]
      by_cases hn : entry.1 = name
      · rw [beq_iff_eq.mpr hn.symm]
        refine ⟨fun t ht => ?_, nofun⟩
        obtain rfl := Option.some.inj ht
        exact hown hn
      · rw [beq_eq_false_iff_ne.mpr (Ne.symm hn), hother hn]
        exact ih hu

theorem reads : r.Reads format default get fun t => (r.part? name t).bind decode := by
  intro t s h
  obtain ⟨hsome, hnone⟩ := hk.foldlM (foldlM_of_read hk.nodup h)
  dsimp only
  cases hp : r.part? name t with
  | none => exact hnone hp
  | some part => rw [Option.bind_some, hsome part hp, Option.getD_some]

end Keeps

/-- What is found in a part of a record is found through it. -/
theorem Keeps.through {τ : Type} {inner : Record τ} {within : σ → τ} {seen : τ → α}
    {find : Tree → Option α}
    (hk : r.Keeps format default name within (inner.read format (within default)))
    (hi : inner.Reads format (within default) seen find) :
    r.Reads format default (fun s => seen (within s)) fun t => (r.part? name t).bind find := by
  intro t s h
  obtain ⟨hsome, hnone⟩ := hk.foldlM (foldlM_of_read hk.nodup h)
  dsimp only
  cases hp : r.part? name t with
  | none => exact congrArg seen (hnone hp)
  | some part =>
      rw [Option.bind_some]
      exact hi part (within s) (hsome part hp)

end Record

end SessionDispatch
