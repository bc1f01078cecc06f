/-!
# Tables of shared objects

A table maps each key to a reference, and references are compared by identity: two references are
the same only if they name the same object. Each key stands at most once.
-/

namespace SessionDispatch

structure Table (κ ρ : Type) where
  entries : List (κ × ρ)
  nodup : (entries.map Prod.fst).Nodup

namespace Table

variable {κ ρ : Type} [DecidableEq κ]

def empty : Table κ ρ := ⟨[], by simp⟩

instance : Inhabited (Table κ ρ) := ⟨empty⟩

def size (t : Table κ ρ) : Nat := t.entries.length

def keys (t : Table κ ρ) : List κ := t.entries.map Prod.fst

def find? (t : Table κ ρ) (k : κ) : Option ρ := t.entries.lookup k

def erase (t : Table κ ρ) (k : κ) : Table κ ρ where
  entries := t.entries.filter (·.1 ≠ k)
  nodup := t.nodup.sublist (List.filter_sublist.map _)

/-- Puts an object under a key, in place of what was there. -/
def insert (t : Table κ ρ) (k : κ) (r : ρ) : Table κ ρ where
  entries := (t.erase k).entries ++ [(k, r)]
  nodup := by
    rw [List.map_append, List.nodup_append]
    refine ⟨(t.erase k).nodup, by simp, ?_⟩
    intro a ha b hb
    obtain rfl : b = k := by simpa using hb
    simp only [erase, List.mem_map, List.mem_filter] at ha
    obtain ⟨e, ⟨_, he⟩, rfl⟩ := ha
    simpa using he

/-- Removes the entry of a key only while it is this very object. -/
def eraseIfSame [DecidableEq ρ] (t : Table κ ρ) (k : κ) (r : ρ) : Bool × Table κ ρ :=
  if t.find? k = some r then (true, t.erase k) else (false, t)

/-- The object under a key, which is `fresh` if there was none; tells whether there was none. -/
def findOrInsert (t : Table κ ρ) (k : κ) (fresh : ρ) : (ρ × Bool) × Table κ ρ :=
  match t.find? k with
  | some r => ((r, false), t)
  | none => ((fresh, true), t.insert k fresh)

def describe (t : Table κ ρ) : String := s!"ConcurrentTable \x7b len: {t.size} \x7d"

theorem lookup_filter_ne (es : List (κ × ρ)) (k j : κ) :
    (es.filter (·.1 ≠ k)).lookup j = if j = k then none else es.lookup j := by
  induction es with
  | nil => simp
  | cons e es ih =>
    obtain ⟨i, r⟩ := e
    rw [List.filter_cons]
    by_cases hik : i = k
    · subst hik
      by_cases hj : j = i
      · subst hj; simpa using ih
      · have hb : (j == i) = false := by simpa using hj
        simpa [List.lookup_cons, hj, hb] using ih
    · by_cases hj : j = i
      · subst hj; simp [hik]
      · have hb : (j == i) = false := by simpa using hj
        simpa [List.lookup_cons, hik, hb] using ih

@[simp] theorem find?_empty (k : κ) : (empty : Table κ ρ).find? k = none := rfl

theorem find?_empty_ne_some (k : κ) (r : ρ) : (empty : Table κ ρ).find? k ≠ some r := nofun

theorem find?_erase (t : Table κ ρ) (k j : κ) :
    (t.erase k).find? j = if j = k then none else t.find? j := lookup_filter_ne t.entries k j

theorem find?_insert (t : Table κ ρ) (k j : κ) (r : ρ) :
    (t.insert k r).find? j = if j = k then some r else t.find? j := by
  have h := find?_erase t k j
  simp only [find?, insert] at h ⊢
  rw [List.lookup_append, h]
  by_cases hj : j = k
  · subst hj; simp
  · have hb : (j == k) = false := by simpa using hj
    simp [hj, List.lookup_cons, hb]

theorem find?_eraseIfSame [DecidableEq ρ] (t : Table κ ρ) (k j : κ) (r : ρ) :
    (t.eraseIfSame k r).2.find? j = if j = k ∧ t.find? k = some r then none else t.find? j := by
  unfold eraseIfSame
  split
  · rename_i h
    simp [find?_erase, h]
  · rename_i h
    simp [h]

/-- An object is removed only where it is the very object that was told. -/
theorem eraseIfSame_fst [DecidableEq ρ] (t : Table κ ρ) (k : κ) (r : ρ) :
    (t.eraseIfSame k r).1 = decide (t.find? k = some r) := by
  unfold eraseIfSame
  split <;> simp_all

theorem findOrInsert_of_some {t : Table κ ρ} {k : κ} {r : ρ} (h : t.find? k = some r) (fresh : ρ) :
    t.findOrInsert k fresh = ((r, false), t) := by simp [findOrInsert, h]

theorem findOrInsert_of_none {t : Table κ ρ} {k : κ} (h : t.find? k = none) (fresh : ρ) :
    t.findOrInsert k fresh = ((fresh, true), t.insert k fresh) := by simp [findOrInsert, h]

theorem findOrInsert_fst (t : Table κ ρ) (k : κ) (fresh : ρ) :
    (t.findOrInsert k fresh).1 = ((t.find? k).getD fresh, (t.find? k).isNone) := by
  unfold findOrInsert
  cases t.find? k <;> rfl

theorem find?_findOrInsert (t : Table κ ρ) (k j : κ) (fresh : ρ) :
    (t.findOrInsert k fresh).2.find? j = if j = k then some ((t.find? k).getD fresh)
    else t.find? j := by
  cases h : t.find? k with
  | none => rw [findOrInsert_of_none h, find?_insert, Option.getD_none]
  | some r =>
    rw [findOrInsert_of_some h, Option.getD_some]
    by_cases hj : j = k
    · rw [if_pos hj, hj, h]
    · rw [if_neg hj]

end Table

end SessionDispatch
