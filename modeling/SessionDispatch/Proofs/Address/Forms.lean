import SessionDispatch.Proofs.Address.Hosts

/-!
# The canonical text of an address

An IPv4-mapped address is written with its last two groups as an IPv4 address. Every other IPv6
address is written in hexadecimal groups, of which the first of the longest runs of zeros is left
out if it has two groups or more. The rules are stated here as relations between an address and a
text, without the search for the run. They leave each address one text, and it is the text that
`chars` writes.
-/

namespace SessionDispatch

namespace Ipv4

/-- Four decimal numerals between points. -/
def Written (ip : Ipv4) (text : List Char) : Prop :=
  text = ['.'].intercalate ([ip.a, ip.b, ip.c, ip.d].map fun octet => Numeral.decimal octet.toNat)

theorem written_iff {ip : Ipv4} {text : List Char} : ip.Written text ↔ text = ip.chars := by
  simp [Written, chars]

end Ipv4

namespace Ipv6

/-! ## The run of zeros that is left out -/

def ZerosAt (gs : List UInt16) (start length : Nat) : Prop := ∀ i < length, gs[start + i]? = some 0

/-- The first of the longest runs of zero groups. -/
structure FirstLongest (gs : List UInt16) (start length : Nat) : Prop where
  zeros : ZerosAt gs start length
  longest : ∀ s n, ZerosAt gs s n → n ≤ length
  first : ∀ s, ZerosAt gs s length → start ≤ s

section Runs

variable {g : UInt16} {gs : List UInt16} {s n start length : Nat}

theorem zerosAt_cons_zero : ZerosAt (g :: gs) 0 (n + 1) ↔ g = 0 ∧ ZerosAt gs 0 n := by
  unfold ZerosAt
  constructor
  · intro h
    constructor
    · simpa using h 0 (by omega)
    · intro i hi
      simpa using h (i + 1) (by omega)
  · intro h i hi
    cases i with
    | zero => simp [h.1]
    | succ i => simpa using h.2 i (by omega)

theorem zerosAt_cons_succ : ZerosAt (g :: gs) (s + 1) n ↔ ZerosAt gs s n := by
  simp [ZerosAt, Nat.add_right_comm]

theorem zerosAt_zero_iff : ZerosAt gs 0 n ↔ n ≤ leadingZeros gs := by
  induction gs generalizing n with
  | nil =>
      cases n with
      | zero => simp [ZerosAt]
      | succ n => exact ⟨fun h => by simpa using h 0 (by omega), nofun⟩
  | cons g gs ih =>
      cases n with
      | zero => simp [ZerosAt]
      | succ n =>
          rw [zerosAt_cons_zero, ih]
          by_cases hg : g = 0 <;> simp [leadingZeros, hg]

theorem firstLongest_longestZeros (gs : List UInt16) :
    FirstLongest gs (longestZeros gs).1 (longestZeros gs).2 := by
  induction gs with
  | nil =>
      constructor
      · simp [ZerosAt, longestZeros]
      · intro s n h
        cases n with
        | zero => exact Nat.le_refl 0
        | succ n => simpa using h 0 (by omega)
      · simp [longestZeros]
  | cons g gs ih =>
      rw [longestZeros]
      dsimp only
      split
      · rename_i hle
        constructor
        · exact zerosAt_zero_iff.mpr (Nat.le_refl _)
        · intro s n h
          cases s with
          | zero => exact zerosAt_zero_iff.mp h
          | succ s => exact Nat.le_trans (ih.longest s n (zerosAt_cons_succ.mp h)) hle
        · intro s _
          exact Nat.zero_le s
      · rename_i hlt
        constructor
        · exact zerosAt_cons_succ.mpr ih.zeros
        · intro s n h
          cases s with
          | zero => exact Nat.le_trans (zerosAt_zero_iff.mp h) (Nat.le_of_not_le hlt)
          | succ s => exact ih.longest s n (zerosAt_cons_succ.mp h)
        · intro s h
          cases s with
          | zero => exact absurd (zerosAt_zero_iff.mp h) hlt
          | succ s => exact Nat.succ_le_succ (ih.first s (zerosAt_cons_succ.mp h))

theorem FirstLongest.eq_longestZeros (h : FirstLongest gs start length) :
    longestZeros gs = (start, length) := by
  have hl := firstLongest_longestZeros gs
  have hlength : (longestZeros gs).2 = length :=
    Nat.le_antisymm (h.longest _ _ hl.zeros) (hl.longest _ _ h.zeros)
  have hstart : (longestZeros gs).1 = start := by
    apply Nat.le_antisymm
    · exact hl.first start (hlength ▸ h.zeros)
    · exact h.first _ (hlength ▸ hl.zeros)
  exact Prod.ext hstart hlength

end Runs

/-! ## The text -/

def joined (gs : List UInt16) : List Char :=
  [':'].intercalate (gs.map fun g => Nat.toDigits 16 g.toNat)

theorem joined_eq (gs : List UInt16) : joined gs = groupChars gs := by
  induction gs with
  | nil => rfl
  | cons g gs ih =>
      cases gs with
      | nil => simp [joined, groupChars]
      | cons g' gs =>
          unfold joined at ih ⊢
          simp only [List.map_cons, List.intercalate_cons_cons, groupChars] at ih ⊢
          rw [ih]
          simp

/-- Five zero groups and one of ones come before the two groups of an IPv4 address. -/
def Maps (ip : Ipv6) (v4 : Ipv4) : Prop := ip.groups = [0, 0, 0, 0, 0, 0xffff] ++ groupsOf v4

/-- The canonical text of an address. -/
inductive Written (ip : Ipv6) : List Char → Prop
  | mapped {v4 : Ipv4} {text : List Char} : ip.Maps v4 → v4.Written text →
      Written ip ("::ffff:".toList ++ text)
  | shortened {start length : Nat} : (∀ v4, ¬ip.Maps v4) → FirstLongest ip.groups start length →
      2 ≤ length →
      Written ip
        (joined (ip.groups.take start) ++ "::".toList ++ joined (ip.groups.drop (start + length)))
  | full : (∀ v4, ¬ip.Maps v4) → (∀ start, ¬ZerosAt ip.groups start 2) →
      Written ip (joined ip.groups)

theorem bytes_groupsOf (a b : UInt8) :
    ((a.toUInt16 * 256 + b.toUInt16) / 256).toUInt8 = a ∧
    (a.toUInt16 * 256 + b.toUInt16).toUInt8 = b := by
  have ha := a.toNat_lt
  have hb := b.toNat_lt
  constructor
  · apply UInt8.toNat_inj.mp
    simp only [UInt16.toNat_add, UInt16.toNat_mul, UInt8.toNat_toUInt16, UInt16.toNat_toUInt8,
      UInt16.toNat_div, UInt16.toNat_ofNat, Nat.reducePow, Nat.reduceMod]
    omega
  · apply UInt8.toNat_inj.mp
    simp only [UInt16.toNat_add, UInt16.toNat_mul, UInt8.toNat_toUInt16, UInt16.toNat_toUInt8,
      UInt16.toNat_ofNat, Nat.reducePow, Nat.reduceMod]
    omega

theorem mapped?_eq_some_iff {ip : Ipv6} {v4 : Ipv4} : ip.mapped? = some v4 ↔ ip.Maps v4 := by
  constructor
  · exact groups_of_mapped?
  · intro h
    unfold mapped?
    rw [h]
    simp only [groupsOf, List.cons_append, List.nil_append, bytes_groupsOf]

theorem mapped?_eq_none_iff {ip : Ipv6} : ip.mapped? = none ↔ ∀ v4, ¬ip.Maps v4 := by
  rw [Option.eq_none_iff_forall_ne_some]
  simp only [ne_eq, mapped?_eq_some_iff]

/-- What is written for an address is its one canonical text. -/
theorem written_iff {ip : Ipv6} {text : List Char} : ip.Written text ↔ text = ip.chars := by
  have hfirst := firstLongest_longestZeros ip.groups
  constructor
  · intro h
    unfold chars
    cases h with
    | mapped hm ht =>
        rw [mapped?_eq_some_iff.mpr hm, Ipv4.written_iff.mp ht]
    | shortened hm hl h2 =>
        rw [mapped?_eq_none_iff.mpr hm]
        dsimp only
        rw [hl.eq_longestZeros, if_neg (Nat.not_lt.mpr h2), joined_eq, joined_eq]
    | full hm hz =>
        rw [mapped?_eq_none_iff.mpr hm]
        dsimp only
        rw [if_pos, joined_eq]
        apply Nat.lt_of_not_le
        intro h2
        exact hz _ fun i hi => hfirst.zeros i (Nat.lt_of_lt_of_le hi h2)
  · intro h
    subst h
    unfold chars
    cases hm : ip.mapped? with
    | some v4 => exact .mapped (mapped?_eq_some_iff.mp hm) (Ipv4.written_iff.mpr rfl)
    | none =>
        have hn := mapped?_eq_none_iff.mp hm
        dsimp only
        split
        · rename_i hshort
          rw [← joined_eq]
          apply Written.full hn
          intro start hz
          exact absurd (hfirst.longest start 2 hz) (Nat.not_le.mpr hshort)
        · rename_i hlong
          rw [← joined_eq, ← joined_eq]
          exact .shortened hn hfirst (Nat.not_lt.mp hlong)

end Ipv6

namespace Host

/-- The canonical text of an address without a port. -/
def Written : Host → List Char → Prop
  | v4 ip => ip.Written
  | v6 ip => ip.Written

theorem written_iff {host : Host} {text : List Char} : host.Written text ↔ text = host.chars := by
  cases host with
  | v4 ip => exact Ipv4.written_iff
  | v6 ip => exact Ipv6.written_iff

end Host

end SessionDispatch
