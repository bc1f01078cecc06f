import Mathlib.Data.List.Count
import SessionDispatch.Table

/-!
# Lifetimes of keys

Clients call a table in any order, and each call holds its lock from start to end, so that their
calls form one sequence. A key comes into the table when an object is made for it or put where there
was none, and it leaves when its entry is removed. Putting another object in place of one does
neither. So a key has come as often as it has left, and once more if it is there, and from one
change of its entry to the next everybody who looks it up gets one object.
-/

namespace SessionDispatch.Table

variable {κ ρ : Type}

inductive Call (κ ρ : Type)
  | insert (k : κ) (r : ρ)
  | find (k : κ)
  | remove (k : κ)
  | removeIfSame (k : κ) (r : ρ)
  | findOrInsert (k : κ) (fresh : ρ)
  | clear
deriving DecidableEq, Repr

def Call.key? : Call κ ρ → Option κ
  | insert k _ | find k | remove k | removeIfSame k _ | findOrInsert k _ => some k
  | clear => none

inductive Answer (ρ : Type)
  | found (r : Option ρ)
  | removed (done : Bool)
  | given (r : ρ) (created : Bool)
  | cleared (count : Nat)
deriving DecidableEq, Repr

variable [DecidableEq κ] [DecidableEq ρ]

def call (t : Table κ ρ) : Call κ ρ → Answer ρ × Table κ ρ
  | .insert k r => (.found (t.find? k), t.insert k r)
  | .find k => (.found (t.find? k), t)
  | .remove k => (.found (t.find? k), t.erase k)
  | .removeIfSame k r =>
    let (done, t) := t.eraseIfSame k r
    (.removed done, t)
  | .findOrInsert k fresh =>
    let ((r, created), t) := t.findOrInsert k fresh
    (.given r created, t)
  | .clear => (.cleared t.size, empty)

def run (t : Table κ ρ) (calls : List (Call κ ρ)) : Table κ ρ :=
  calls.foldl (fun t c => (t.call c).2) t

/-- The calls of a run, each with the table that it finds. -/
def history (t : Table κ ρ) : List (Call κ ρ) → List (Table κ ρ × Call κ ρ)
  | [] => []
  | c :: calls => (t, c) :: history (t.call c).2 calls

/-- The call tells that it created the object of a key, or put one where it found none. -/
def brings (k : κ) (m : Table κ ρ × Call κ ρ) : Bool :=
  match m.2, (m.1.call m.2).1 with
  | .findOrInsert j _, .given _ created => j = k && created
  | .insert j _, .found previous => j = k && previous.isNone
  | _, _ => false

/-- The call tells that it removed the entry of a key, or it clears a table in which the key is. -/
def drops (k : κ) (m : Table κ ρ × Call κ ρ) : Bool :=
  match m.2, (m.1.call m.2).1 with
  | .remove j, .found previous => j = k && previous.isSome
  | .removeIfSame j _, .removed done => j = k && done
  | .clear, _ => (m.1.find? k).isSome
  | _, _ => false

/-- The call puts an object under a key, whatever was there. -/
def puts (k : κ) (m : Table κ ρ × Call κ ρ) : Bool :=
  match m.2 with
  | .insert j _ => j = k
  | _ => false

/-- The call changes the entry of a key, if only by putting an object in place of another. -/
def changes (k : κ) (m : Table κ ρ × Call κ ρ) : Bool := brings k m || drops k m || puts k m

/-! ## What one call does -/

section Calls

variable (t : Table κ ρ) (k : κ)

/-- What is under a key after a call, told from what was there before. -/
theorem find?_call (c : Call κ ρ) :
    (t.call c).2.find? k =
      match c with
      | .insert j r => if k = j then some r else t.find? k
      | .find _ => t.find? k
      | .remove j => if k = j then none else t.find? k
      | .removeIfSame j r => if k = j ∧ t.find? j = some r then none else t.find? k
      | .findOrInsert j fresh => if k = j then some ((t.find? j).getD fresh) else t.find? k
      | .clear => none := by
  cases c with
  | insert j r => exact find?_insert t j k r
  | find j => rfl
  | remove j => exact find?_erase t j k
  | removeIfSame j r => exact find?_eraseIfSame t j k r
  | findOrInsert j fresh => exact find?_findOrInsert t j k fresh
  | clear => exact find?_empty k

/-- A call that is about another key leaves the entry of a key as it is. -/
theorem find?_call_of_ne {c : Call κ ρ} {j : κ} (hc : c.key? = some j) (hj : j ≠ k) :
    (t.call c).2.find? k = t.find? k := by
  have hk : ∀ i, some i = some j → k ≠ i :=
    fun i hi hki => hj ((Option.some.inj hi).symm.trans hki.symm)
  rw [find?_call]
  cases c with
  | insert i r | remove i | findOrInsert i fresh => exact if_neg (hk i hc)
  | removeIfSame i r => exact if_neg fun h => hk i hc h.1
  | find i => rfl
  | clear => cases hc

/-- A key that comes was not there, and a key that leaves was. -/
theorem brings_add (c : Call κ ρ) :
    (brings k (t, c)).toNat + (t.find? k).isSome.toNat =
      (drops k (t, c)).toNat + ((t.call c).2.find? k).isSome.toNat := by
  rw [find?_call]
  cases c with
  | insert j r =>
      by_cases hj : j = k
      · subst hj
        cases h : t.find? j <;> simp [brings, drops, call, h]
      · simp [brings, drops, call, hj, Ne.symm hj]
  | find j => simp [brings, drops]
  | remove j =>
      by_cases hj : j = k
      · subst hj
        simp [brings, drops, call]
      · simp [brings, drops, call, hj, Ne.symm hj]
  | removeIfSame j r =>
      by_cases hj : j = k
      · subst hj
        by_cases h : t.find? j = some r
        · simp [brings, drops, call, eraseIfSame_fst, h]
        · simp [brings, drops, call, eraseIfSame_fst, h]
      · simp [brings, drops, call, hj, Ne.symm hj]
  | findOrInsert j fresh =>
      by_cases hj : j = k
      · subst hj
        cases h : t.find? j <;> simp [brings, drops, call, findOrInsert_fst, h]
      · simp [brings, drops, call, hj, Ne.symm hj]
  | clear => exact Nat.zero_add _

/-- A call that does not tell of a change leaves the entry of a key as it is. -/
theorem find?_call_of_unchanged {c : Call κ ρ} (h : changes k (t, c) = false) :
    (t.call c).2.find? k = t.find? k := by
  simp only [changes, Bool.or_eq_false_iff] at h
  obtain ⟨⟨hbrings, hdrops⟩, hputs⟩ := h
  by_cases hk : c.key? = some k
  · rw [find?_call]
    cases c with
    | find j => rfl
    | clear => cases hk
    | insert j r =>
        obtain rfl := Option.some.inj hk
        simp [puts] at hputs
    | remove j =>
        obtain rfl := Option.some.inj hk
        simp only [drops, call, decide_true, Bool.true_and, Option.isSome_eq_false_iff,
          Option.isNone_iff_eq_none]
          at hdrops
        exact (if_pos rfl).trans hdrops.symm
    | removeIfSame j r =>
        obtain rfl := Option.some.inj hk
        simp only [drops, call, eraseIfSame_fst] at hdrops
        apply if_neg
        simpa using hdrops
    | findOrInsert j fresh =>
        obtain rfl := Option.some.inj hk
        simp only [brings, call, findOrInsert_fst] at hbrings
        cases hj : t.find? j with
        | none => simp [hj] at hbrings
        | some r => simp [hj]
  · cases hc : c.key? with
    | some j => exact find?_call_of_ne t k hc fun hj => hk (hj ▸ hc)
    | none =>
        cases c with
        | clear =>
            simp only [drops, Option.isSome_eq_false_iff, Option.isNone_iff_eq_none] at hdrops
            rw [find?_call, hdrops]
        | insert _ _ | find _ | remove _ | removeIfSame _ _ | findOrInsert _ _ => cases hc

/-- A call that is to find an object or make it finds it, unless it tells that it made it. -/
theorem call_findOrInsert {fresh : ρ} (h : changes k (t, .findOrInsert k fresh) = false) :
    ∃ r, t.find? k = some r ∧ (t.call (.findOrInsert k fresh)).1 = .given r false := by
  simp only [changes, brings, call, findOrInsert_fst, Bool.or_eq_false_iff] at h
  cases hk : t.find? k with
  | none => simp [hk] at h
  | some r => exact ⟨r, rfl, by simp [call, findOrInsert_of_some hk]⟩

end Calls

/-! ## Runs -/

section Runs

variable (t : Table κ ρ) (k : κ) (calls : List (Call κ ρ))

theorem countP_brings_add :
    (t.history calls).countP (brings k) + (t.find? k).isSome.toNat =
      (t.history calls).countP (drops k) + ((t.run calls).find? k).isSome.toNat := by
  induction calls generalizing t with
  | nil => rfl
  | cons c calls ih =>
      have hcall := brings_add t k c
      have hrest := ih (t.call c).2
      have hcount : ∀ b : Bool, (if b = true then 1 else 0) = b.toNat := by decide
      simp only [history, List.countP_cons, run, List.foldl_cons, hcount] at hrest ⊢
      omega

/-- As long as no call tells of a change of a key, every call finds the same entry. -/
theorem find?_of_unchanged (h : ∀ m ∈ t.history calls, changes k m = false) :
    (t.run calls).find? k = t.find? k ∧ ∀ m ∈ t.history calls, m.1.find? k = t.find? k := by
  induction calls generalizing t with
  | nil => exact ⟨rfl, fun _ hm => absurd hm List.not_mem_nil⟩
  | cons c calls ih =>
      obtain ⟨hc, hrest⟩ := List.forall_mem_cons.mp h
      have hcall := find?_call_of_unchanged t k hc
      obtain ⟨hrun, hfound⟩ := ih (t.call c).2 hrest
      constructor
      · exact hrun.trans hcall
      · rw [history, List.forall_mem_cons]
        exact ⟨rfl, fun m hm => (hfound m hm).trans hcall⟩

end Runs

/-- Whatever clients do with a table, a key has come into it once for every time that it has left,
and once more if it is there. From one change of its entry to the next, all who look the key up get
the object that is there, and nobody makes another. A removal that is meant for one object succeeds
if the key stands for this very object, and otherwise changes nothing, as no call about another key
changes anything. -/
theorem comes_once_a_lifetime (calls : List (Call κ ρ)) (k : κ) :
    let t := (empty : Table κ ρ).run calls
    let history := (empty : Table κ ρ).history calls
    history.countP (brings k) = history.countP (drops k) + (t.find? k).isSome.toNat ∧
    (∀ more, (∀ m ∈ t.history more, changes k m = false) →
      (t.run more).find? k = t.find? k ∧
      ∀ m ∈ t.history more, (m.2 = .find k → (m.1.call m.2).1 = .found (t.find? k)) ∧
        ∀ fresh, m.2 = .findOrInsert k fresh → ∃ r, t.find? k = some r ∧
          (m.1.call m.2).1 = .given r false) ∧
    (∀ r, ((t.call (.removeIfSame k r)).1 = .removed true ↔ t.find? k = some r) ∧
      (t.find? k ≠ some r → t.call (.removeIfSame k r) = (.removed false, t)) ∧
      (t.find? k = some r → (t.call (.removeIfSame k r)).2.find? k = none)) ∧
    ∀ c j, c.key? = some j → j ≠ k → (t.call c).2.find? k = t.find? k := by
  intro t history
  refine ⟨?_, ?_, ?_, fun c j hc hj => find?_call_of_ne t k hc hj⟩
  · have hcount := countP_brings_add (empty : Table κ ρ) k calls
    rwa [find?_empty] at hcount
  · intro more h
    obtain ⟨hrun, hfound⟩ := find?_of_unchanged t k more h
    refine ⟨hrun, fun m hm => ⟨?_, ?_⟩⟩
    · intro hfind
      rw [hfind, ← hfound m hm]
      rfl
    · intro fresh hgive
      have hm' : changes k (m.1, .findOrInsert k fresh) = false := hgive ▸ h m hm
      rw [hgive, ← hfound m hm]
      exact call_findOrInsert m.1 k hm'
  · intro r
    refine ⟨?_, ?_, ?_⟩
    · simp [call, eraseIfSame_fst]
    · intro hne
      simp [call, eraseIfSame, hne]
    · intro heq
      rw [find?_call]
      exact if_pos ⟨rfl, heq⟩

/-- A key whose object is replaced, then removed by who holds the new one and not by who holds the
old one, comes anew with the old object, which a clearing drops. -/
example :
    let history := (empty : Table Nat Nat).history
      [.findOrInsert 1 10, .insert 1 11, .removeIfSame 1 10, .removeIfSame 1 11, .insert 1 10,
        .clear, .findOrInsert 1 12]
    history.map (brings 1) = [true, false, false, false, true, false, true] ∧
      history.map (drops 1) = [false, false, false, true, false, true, false] := by
  decide

end SessionDispatch.Table
