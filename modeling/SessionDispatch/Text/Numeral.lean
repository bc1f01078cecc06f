/-!
# Numerals

Numbers written in a base up to sixteen and read back. Reading takes a text that holds digits and
nothing else; `ofDigits_toDigits` says that it undoes writing.
-/

namespace SessionDispatch.Numeral

/-- The value of a digit, in either case, if it is below the base. -/
def digit? (base : Nat) (c : Char) : Option Nat :=
  let v :=
    if '0' ≤ c ∧ c ≤ '9' then c.toNat - '0'.toNat
    else if 'a' ≤ c ∧ c ≤ 'f' then c.toNat - 'a'.toNat + 10
    else if 'A' ≤ c ∧ c ≤ 'F' then c.toNat - 'A'.toNat + 10
    else base
  if v < base then some v else none

def isDigit (base : Nat) (c : Char) : Bool := (digit? base c).isSome

theorem digit?_digitChar {base d : Nat} (hb : base ≤ 16) (hd : d < base) :
    digit? base d.digitChar = some d := by
  have hd' : d < 16 := by omega
  have key : ∀ e : Fin 16, ∀ b : Fin 17, e.val < b.val → digit? b e.val.digitChar = some e.val := by
    decide
  exact key ⟨d, hd'⟩ ⟨base, by omega⟩ hd

/-- Reads on from the value `acc` of the digits before. -/
def accumulate (base acc : Nat) : List Char → Option Nat
  | [] => some acc
  | c :: rest => (digit? base c).bind fun d => accumulate base (base * acc + d) rest

/-- The value of a text of one or more digits. -/
def ofDigits? (base : Nat) : List Char → Option Nat
  | [] => none
  | c :: rest => accumulate base 0 (c :: rest)

theorem accumulate_append (base acc : Nat) (s t : List Char) :
    accumulate base acc (s ++ t) = (accumulate base acc s).bind (accumulate base · t) := by
  induction s generalizing acc with
  | nil => rfl
  | cons c s ih =>
    cases h : digit? base c with
    | none => simp [accumulate, h]
    | some d => simp [accumulate, h, ih]

theorem accumulate_toDigits {base : Nat} (h1 : 1 < base) (h16 : base ≤ 16) (n : Nat) :
    accumulate base 0 (base.toDigits n) = some n := by
  induction n using Nat.strongRecOn with
  | ind n ih =>
    rw [Nat.toDigits_eq_if h1]
    split
    · rename_i hn
      simp [accumulate, digit?_digitChar h16 hn]
    · rename_i hn
      have hpos : 0 < base := by omega
      have hlt : n / base < n := Nat.div_lt_self (by omega) h1
      rw [accumulate_append, ih _ hlt]
      simp [accumulate, digit?_digitChar h16 (Nat.mod_lt n hpos), Nat.div_add_mod]

theorem toDigits_ne_nil {base : Nat} (h1 : 1 < base) (n : Nat) : base.toDigits n ≠ [] := by
  rw [Nat.toDigits_eq_if h1]
  split <;> simp

theorem ofDigits?_toDigits {base : Nat} (h1 : 1 < base) (h16 : base ≤ 16) (n : Nat) :
    ofDigits? base (base.toDigits n) = some n := by
  have h := accumulate_toDigits h1 h16 n
  revert h
  cases hd : base.toDigits n with
  | nil => exact absurd hd (toDigits_ne_nil h1 n)
  | cons c rest => exact id

theorem isDigit_of_mem_toDigits {base : Nat} (h1 : 1 < base) (h16 : base ≤ 16) {n : Nat} {c : Char}
    (hc : c ∈ base.toDigits n) : isDigit base c := by
  induction n using Nat.strongRecOn generalizing c with
  | ind n ih =>
    rw [Nat.toDigits_eq_if h1] at hc
    split at hc
    · rename_i hn
      obtain rfl := List.mem_singleton.1 hc
      simp [isDigit, digit?_digitChar h16 hn]
    · rename_i hn
      have hpos : 0 < base := by omega
      rcases List.mem_append.1 hc with hc | hc
      · exact ih _ (Nat.div_lt_self (by omega) h1) hc
      · obtain rfl := List.mem_singleton.1 hc
        simp [isDigit, digit?_digitChar h16 (Nat.mod_lt n hpos)]

/-- The decimal numeral of a number. -/
def decimal (n : Nat) : List Char := Nat.toDigits 10 n

/-- An unsigned whole number up to `limit`: decimal digits, perhaps after a plus sign. -/
def unsigned? (limit : Nat) (s : List Char) : Option Nat :=
  let digits := match s with
    | '+' :: rest => rest
    | _ => s
  (ofDigits? 10 digits).filter (· ≤ limit)

/-- A whole number of `bits` bits in two's complement: decimal digits, perhaps after a sign. -/
def signed? (bits : Nat) : List Char → Option Int
  | '-' :: rest => ((ofDigits? 10 rest).filter (· ≤ Nat.pow 2 (bits - 1))).map fun n => -Int.ofNat n
  | s => (unsigned? (Nat.pow 2 (bits - 1) - 1) s).map Int.ofNat

/-- The lower-case hexadecimal numeral of a number, filled with zeros to `width` digits. -/
def hex (width n : Nat) : List Char :=
  let digits := Nat.toDigits 16 n
  List.replicate (width - digits.length) '0' ++ digits

end SessionDispatch.Numeral
