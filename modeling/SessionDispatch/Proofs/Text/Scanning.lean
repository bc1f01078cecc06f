import SessionDispatch.Text.Numeral
import SessionDispatch.Text.Scanner

/-!
# What scanners and numerals do with written text

A scanner that is given a written text takes it off the front, and how it goes on depends on the
next character alone.
-/

namespace SessionDispatch

namespace Scanner

variable {α β : Type} {p q : Scanner α} {f : α → Scanner β} {g : α → β} {s t : List Char} {a : α}

theorem bind_of_some (h : p s = some (a, t)) : (p >>= f) s = f a t := by
  change (p s).bind (fun r => f r.1 r.2) = f a t
  rw [h, Option.bind_some]

theorem bind_of_none (h : p s = none) : (p >>= f) s = none := by
  change (p s).bind (fun r => f r.1 r.2) = none
  rw [h, Option.bind_none]

theorem orElse_of_some (h : p s = some (a, t)) : (p <|> q) s = some (a, t) := by
  change (p s).orElse (fun _ => q s) = some (a, t)
  rw [h, Option.orElse_some]

theorem orElse_of_none (h : p s = none) : (p <|> q) s = q s := by
  change (p s).orElse (fun _ => q s) = q s
  rw [h, Option.orElse_none]

theorem map_of_some (h : p s = some (a, t)) : (g <$> p) s = some (g a, t) := by
  change (p s).bind _ = _
  rw [h]
  rfl

theorem map_of_none (h : p s = none) : (g <$> p) s = none := by
  change (p s).bind _ = _
  rw [h]
  rfl

theorem char_cons (c : Char) (s : List Char) : char c (c :: s) = some ((), s) := if_pos rfl

theorem char_of_head?_ne {c : Char} (h : s.head? ≠ some c) : char c s = none := by
  cases s with
  | nil => rfl
  | cons d s => exact if_neg fun hd => h (congrArg some hd)

theorem literal_append (t s : List Char) : literal t (t ++ s) = some ((), s) := by
  induction t with
  | nil => rfl
  | cons c t ih => exact (bind_of_some (char_cons c (t ++ s))).trans ih

end Scanner

namespace Numeral

/-- No digit is one of the characters between numerals, whatever the base. -/
theorem not_isDigit_of_mem {c : Char} (hc : c ∈ ['.', ':', '-', '+']) (base : Nat) :
    ¬ isDigit base c := by
  simp only [List.mem_cons, List.not_mem_nil, or_false] at hc
  rcases hc with rfl | rfl | rfl | rfl <;> simp [isDigit, digit?]

theorem not_mem_toDigits {base : Nat} (h1 : 1 < base) (h16 : base ≤ 16) {c : Char}
    (hc : c ∈ ['.', ':', '-', '+']) (n : Nat) : c ∉ base.toDigits n :=
  fun hm => not_isDigit_of_mem hc base (isDigit_of_mem_toDigits h1 h16 hm)

theorem not_mem_decimal {c : Char} (hc : c ∈ ['.', ':', '-', '+']) (n : Nat) : c ∉ decimal n :=
  not_mem_toDigits (by decide) (by decide) hc n

/-- Numerals are written in lower case. -/
theorem mem_of_mem_toDigits {base : Nat} (h1 : 1 < base) (h16 : base ≤ 16) {n : Nat} {c : Char}
    (hc : c ∈ base.toDigits n) : c ∈ "0123456789abcdef".toList := by
  have key : ∀ d : Fin 16, d.val.digitChar ∈ "0123456789abcdef".toList := by decide
  induction n using Nat.strongRecOn with
  | ind n ih =>
      rw [Nat.toDigits_eq_if h1] at hc
      split at hc
      · rw [List.mem_singleton.mp hc]
        exact key ⟨n, by omega⟩
      · have hmod := Nat.mod_lt n (by omega : base > 0)
        cases List.mem_append.mp hc with
        | inl hc => exact ih (n / base) (Nat.div_lt_self (by omega) h1) hc
        | inr hc =>
            rw [List.mem_singleton.mp hc]
            exact key ⟨n % base, by omega⟩

theorem isDigit_of_mem_decimal {n : Nat} {c : Char} (hc : c ∈ decimal n) : isDigit 10 c :=
  isDigit_of_mem_toDigits (by decide) (by decide) hc

theorem unsigned?_decimal {limit n : Nat} (hn : n ≤ limit) :
    unsigned? limit (decimal n) = some n := by
  have hread : ofDigits? 10 (decimal n) = some n := ofDigits?_toDigits (by decide) (by decide) n
  unfold unsigned?
  split
  · rename_i rest hplus
    have hmem : '+' ∈ decimal n := hplus ▸ List.mem_cons_self
    exact absurd hmem (not_mem_decimal (by simp) n)
  · dsimp only
    rw [hread, Option.filter_some, if_pos (decide_eq_true hn)]

/-- No numeral but that of zero has a leading zero. -/
theorem decimal_of_head?_eq_zero {n : Nat} (h : (decimal n).head? = some '0') :
    decimal n = ['0'] := by
  suffices hn : n = 0 by
    rw [hn]
    rfl
  induction n using Nat.strongRecOn with
  | ind n ih =>
      rw [decimal, Nat.toDigits_eq_if (by decide)] at h
      split at h
      · rename_i hlt
        have key : ∀ d : Fin 10, Nat.digitChar d = '0' → d.val = 0 := by decide
        exact key ⟨n, hlt⟩ (by simpa using h)
      · rename_i hge
        have hzero := ih (n / 10) (by omega) ?_
        · omega
        · cases hd : Nat.toDigits 10 (n / 10) with
          | nil => exact absurd hd (toDigits_ne_nil (by decide) _)
          | cons c rest =>
              rw [hd] at h
              rw [decimal, hd]
              exact h

end Numeral

end SessionDispatch
