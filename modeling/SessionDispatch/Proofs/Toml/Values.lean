import SessionDispatch.Proofs.Toml.Quoting
import SessionDispatch.Toml.Statement

/-!
# Values are read back

A value that was written on a line is read back up to the end of the line. A whole number is not
taken for a date or for a number with a fraction, since nothing but digits stands on the line.
-/

namespace SessionDispatch.Toml

open Scanner

variable {c : Char} {s ds rest : List Char} {n : Nat}

/-! ## Numbers -/

section Digits

variable (hd : ∀ c ∈ ds, Numeral.isDigit 10 c = true)
include hd

theorem head?_digits (hs : ds ≠ []) (hc : Numeral.isDigit 10 c = false) :
    (ds ++ rest).head? ≠ some c := by
  cases ds with
  | nil => exact absurd rfl hs
  | cons d ds =>
      intro h
      rw [← Option.some.inj h, hd d List.mem_cons_self] at hc
      cases hc

/-- On a line of digits no other character follows some of them. -/
theorem char_drop_digits (hc : Numeral.isDigit 10 c = false) (hn : c ≠ '\n') (n : Nat) :
    char c (ds.drop n ++ '\n' :: rest) = none := by
  refine char_of_head?_ne fun h => ?_
  cases hdrop : ds.drop n with
  | nil =>
      rw [hdrop] at h
      exact hn (Option.some.inj h).symm
  | cons d tail =>
      have hmem : d ∈ ds := List.mem_of_mem_drop (hdrop ▸ List.mem_cons_self)
      rw [hdrop] at h
      rw [← Option.some.inj h, hd d hmem] at hc
      cases hc

theorem exactly_digits (n : Nat) :
    exactly n (Numeral.isDigit 10) (ds ++ '\n' :: rest) =
      if n ≤ ds.length then some (ds.take n, ds.drop n ++ '\n' :: rest) else none := by
  unfold exactly
  split_ifs with htake hle hle
  · rw [List.take_append_of_le_length hle, List.drop_append_of_le_length hle]
  · have hmem : '\n' ∈ (ds ++ '\n' :: rest).take n := by
      rw [List.take_append, List.take_of_length_le (Nat.le_of_not_le hle)]
      refine List.mem_append_right _ ?_
      cases hk : n - ds.length with
      | zero => exact absurd (Nat.le_of_sub_eq_zero hk) hle
      | succ k => exact List.mem_cons_self
    exact absurd (List.all_eq_true.mp htake.2 _ hmem) (by decide)
  · rw [List.take_append_of_le_length hle, List.length_take] at htake
    exact absurd
      ⟨Nat.min_eq_left hle, List.all_eq_true.mpr fun c hc => hd c (List.mem_of_mem_take hc)⟩ htake
  · rfl

omit hd in
theorem exactly_succ_of_not {p : Char → Bool} (hc : p c = false) (n : Nat) (s : List Char) :
    exactly (n + 1) p (c :: s) = none := by
  refine if_neg fun h => ?_
  rw [List.all_eq_true.mp h.2 c List.mem_cons_self] at hc
  cases hc

theorem moreDigits_digits : moreDigits 10 (ds ++ '\n' :: rest) = (ds, '\n' :: rest) := by
  induction ds with
  | nil =>
      rw [List.nil_append, moreDigits]
      · rfl
      · exact fun _ _ h => absurd h (by decide)
  | cons d ds ih =>
      obtain ⟨hdigit, hd⟩ := List.forall_mem_cons.mp hd
      rw [List.cons_append, moreDigits, if_pos hdigit, ih hd]
      rintro c t h -
      rw [h] at hdigit
      exact absurd hdigit (by decide)

end Digits

theorem two_digits (hd : ∀ c ∈ ds, Numeral.isDigit 10 c = true) (lo hi : Nat) (rest : List Char) :
    two lo hi (ds ++ '\n' :: rest) = none ∨
      ∃ n, two lo hi (ds ++ '\n' :: rest) = some (n, ds.drop 2 ++ '\n' :: rest) := by
  unfold two
  by_cases hle : 2 ≤ ds.length
  · rw [bind_of_some ((exactly_digits hd 2).trans (if_pos hle))]
    split_ifs
    · exact .inr ⟨_, rfl⟩
    · exact .inl rfl
  · exact .inl (bind_of_none ((exactly_digits hd 2).trans (if_neg hle)))

/-- A date has a dash or a colon after some digits, and a line of digits has none. -/
theorem date_digits (hd : ∀ c ∈ ds, Numeral.isDigit 10 c = true) :
    date (ds ++ '\n' :: rest) = none := by
  have hday : day (ds ++ '\n' :: rest) = none := by
    unfold day
    by_cases hle : 4 ≤ ds.length
    · rw [bind_of_some ((exactly_digits hd 4).trans (if_pos hle)),
        bind_of_none (char_drop_digits hd (by decide) (by decide) 4)]
    · exact bind_of_none ((exactly_digits hd 4).trans (if_neg hle))
  have htime : time (ds ++ '\n' :: rest) = none := by
    unfold time
    obtain htwo | ⟨n, htwo⟩ := two_digits hd 0 23 rest
    · exact bind_of_none (bind_of_none htwo)
    · rw [bind_of_some (bind_of_some htwo),
        bind_of_none (char_drop_digits hd (by decide) (by decide) 2)]
  exact (orElse_of_none (bind_of_none hday)).trans htime

def minus (negative : Bool) : List Char := if negative then ['-'] else []

theorem sign_minus (negative : Bool) (hminus : s.head? ≠ some '-') (hplus : s.head? ≠ some '+') :
    sign (minus negative ++ s) = some (negative, s) := by
  cases negative with
  | true => exact orElse_of_some (bind_of_some (char_cons ..))
  | false =>
      refine (orElse_of_none (bind_of_none (char_of_head?_ne hminus))).trans ?_
      exact orElse_of_none (bind_of_none (char_of_head?_ne hplus))

section Decimal

open Numeral (isDigit isDigit_of_mem_decimal)

theorem decimal_ne_nil (n : Nat) : Numeral.decimal n ≠ [] := Numeral.toDigits_ne_nil (by decide) n

theorem head?_decimal (hc : isDigit 10 c = false) (n : Nat) (t : List Char) :
    (Numeral.decimal n ++ t).head? ≠ some c :=
  head?_digits (fun _ => isDigit_of_mem_decimal) (decimal_ne_nil n) hc

theorem sign_decimal (negative : Bool) (n : Nat) (t : List Char) :
    sign (minus negative ++ (Numeral.decimal n ++ t)) = some (negative, Numeral.decimal n ++ t) :=
  sign_minus negative (head?_decimal (by decide) n t) (head?_decimal (by decide) n t)

theorem wholeDigits_decimal (n : Nat) :
    wholeDigits (Numeral.decimal n ++ '\n' :: rest) = some (Numeral.decimal n, '\n' :: rest) := by
  by_cases hzero : (Numeral.decimal n).head? = some '0'
  · rw [Numeral.decimal_of_head?_eq_zero hzero]
    rfl
  · cases hd : Numeral.decimal n with
    | nil => exact absurd hd (decimal_ne_nil n)
    | cons d ds =>
        have hall : ∀ c ∈ d :: ds, isDigit 10 c = true :=
          fun c hc => isDigit_of_mem_decimal (hd ▸ hc)
        obtain ⟨hdigit, hall⟩ := List.forall_mem_cons.mp hall
        rw [hd] at hzero
        have hhead : (d :: ds ++ '\n' :: rest).head? ≠ some '0' := hzero
        refine (orElse_of_none (bind_of_none (char_of_head?_ne hhead))).trans ?_
        rw [List.cons_append, digits, if_pos hdigit, moreDigits_digits hall]

/-- A letter after a zero would tell another base. -/
theorem based_decimal {letter : Char} (hl : letter ≠ '\n') (base : Nat) (negative : Bool)
    (n : Nat) :
    based letter base (minus negative ++ (Numeral.decimal n ++ '\n' :: rest)) = none := by
  unfold based
  by_cases hzero : negative = false ∧ (Numeral.decimal n).head? = some '0'
  · rw [hzero.1, Numeral.decimal_of_head?_eq_zero hzero.2]
    exact (bind_of_some (char_cons ..)).trans
      (bind_of_none (char_of_head?_ne fun h => hl (Option.some.inj h).symm))
  · refine bind_of_none (char_of_head?_ne fun h => hzero ?_)
    cases negative with
    | true => exact absurd (Option.some.inj h) (by decide)
    | false =>
        refine ⟨rfl, ?_⟩
        cases hd : Numeral.decimal n with
        | nil => exact absurd hd (decimal_ne_nil n)
        | cons d ds =>
            change (Numeral.decimal n ++ '\n' :: rest).head? = _ at h
            rw [hd] at h
            exact h

theorem date_decimal (negative : Bool) (n : Nat) :
    date (minus negative ++ (Numeral.decimal n ++ '\n' :: rest)) = none := by
  cases negative with
  | true =>
      have hnone : ∀ k t, exactly (k + 1) (isDigit 10) ('-' :: t) = none :=
        fun k t => exactly_succ_of_not (by decide) k t
      refine (orElse_of_none (bind_of_none (bind_of_none (hnone 3 _)))).trans ?_
      exact bind_of_none (bind_of_none (bind_of_none (hnone 1 _)))
  | false => exact date_digits fun _ => isDigit_of_mem_decimal

theorem fractional_decimal (negative : Bool) (n : Nat) :
    fractional (minus negative ++ (Numeral.decimal n ++ '\n' :: rest)) = none := by
  unfold fractional
  rw [bind_of_some (sign_decimal negative n _), bind_of_some (wholeDigits_decimal n)]
  rfl

theorem special_decimal (negative : Bool) (n : Nat) :
    special (minus negative ++ (Numeral.decimal n ++ '\n' :: rest)) = none := by
  unfold special
  rw [bind_of_some (sign_decimal negative n _)]
  refine (orElse_of_none (bind_of_none (char_of_head?_ne (head?_decimal (by decide) n _)))).trans ?_
  exact bind_of_none (char_of_head?_ne (head?_decimal (by decide) n _))

/-- A whole number of 64 bits is read back. -/
theorem number_decimal {negative : Bool} (hn : if negative then n ≤ 2 ^ 63 else n < 2 ^ 63) :
    number (minus negative ++ (Numeral.decimal n ++ '\n' :: rest)) =
      some (.scalar (.int (if negative then -(n : Int) else n)), '\n' :: rest) := by
  have hvalue : Numeral.ofDigits? 10 (Numeral.decimal n) = some n :=
    Numeral.ofDigits?_toDigits (by decide) (by decide) n
  have hread : Toml.decimal (minus negative ++ (Numeral.decimal n ++ '\n' :: rest)) =
      some (if negative then -(n : Int) else n, '\n' :: rest) := by
    unfold Toml.decimal
    rw [bind_of_some (sign_decimal negative n _), bind_of_some (wholeDigits_decimal n), hvalue]
    cases negative with
    | true => exact congrFun (if_pos hn) _
    | false => exact congrFun (if_pos hn) _
  have hinteger : integer (minus negative ++ (Numeral.decimal n ++ '\n' :: rest)) =
      some (if negative then -(n : Int) else n, '\n' :: rest) := by
    refine (orElse_of_none (based_decimal (by decide) 16 negative n)).trans ?_
    refine (orElse_of_none (based_decimal (by decide) 8 negative n)).trans ?_
    exact (orElse_of_none (based_decimal (by decide) 2 negative n)).trans hread
  refine (orElse_of_none (bind_of_none (date_decimal negative n))).trans ?_
  refine (orElse_of_none (bind_of_none (fractional_decimal negative n))).trans ?_
  exact (orElse_of_none (bind_of_none (special_decimal negative n))).trans (bind_of_some hinteger)

end Decimal

/-! ## Scalars -/

/-- A number that a document can hold. -/
def Fits : Scalar → Prop
  | .int n => -2 ^ 63 ≤ n ∧ n < 2 ^ 63
  | _ => True

instance : DecidablePred Fits
  | .int _ => inferInstanceAs (Decidable (_ ∧ _))
  | .bool _ | .text _ => .isTrue trivial

theorem singleLine_of_head? (hq : s.head? ≠ some '"') (ha : s.head? ≠ some '\'') :
    singleLine s = none := by
  unfold singleLine
  split
  · exact absurd rfl hq
  · exact absurd rfl ha
  · rfl

theorem quoted_of_head? (hq : s.head? ≠ some '"') (ha : s.head? ≠ some '\'') : quoted s = none := by
  unfold quoted
  split
  · exact absurd rfl hq
  · exact absurd rfl ha
  · exact singleLine_of_head? hq ha

theorem simpleValue_number (negative : Bool) (hn : if negative then n ≤ 2 ^ 63 else n < 2 ^ 63) :
    simpleValue (minus negative ++ (Numeral.decimal n ++ '\n' :: rest)) =
      some (.scalar (.int (if negative then -(n : Int) else n)), '\n' :: rest) := by
  have hquoted : quoted (minus negative ++ (Numeral.decimal n ++ '\n' :: rest)) = none := by
    cases negative with
    | true => rfl
    | false => exact quoted_of_head? (head?_decimal (by decide) n _) (head?_decimal (by decide) n _)
  exact (orElse_of_none (bind_of_none hquoted)).trans (orElse_of_some (number_decimal hn))

theorem simpleValue_scalarChars {v : Scalar} (hv : Fits v) (rest : List Char) :
    simpleValue (scalarChars v ++ '\n' :: rest) = some (.scalar v, '\n' :: rest) := by
  cases v with
  | bool b => cases b <;> rfl
  | int i =>
      cases i with
      | ofNat n => exact simpleValue_number false (Int.ofNat_lt.mp hv.2)
      | negSucc n =>
          have hn : n + 1 ≤ 2 ^ 63 := by
            have hlow := hv.1
            omega
          exact simpleValue_number true hn
  | text s =>
      have hread : quoted (quotedChars s.toList ++ '\n' :: rest) =
          some (String.ofList s.toList, '\n' :: rest) :=
        quoted_quotedChars s.toList (by simp) (by simp)
      rw [String.ofList_toList] at hread
      exact orElse_of_some (bind_of_some hread)

theorem value_scalarChars {v : Scalar} (hv : Fits v) (depth : Nat) (rest : List Char) :
    value depth (scalarChars v ++ '\n' :: rest) = some (.scalar v, '\n' :: rest) := by
  cases depth with
  | zero => exact simpleValue_scalarChars hv rest
  | succ depth => exact orElse_of_some (simpleValue_scalarChars hv rest)

end SessionDispatch.Toml
