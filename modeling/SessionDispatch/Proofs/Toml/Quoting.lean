import Mathlib
import SessionDispatch.Proofs.Text.Scanning
import SessionDispatch.Toml.Printer
import SessionDispatch.Toml.Quoted

/-!
# Quoted texts are read back

Whichever of the four quotings is chosen for a text, reading takes exactly what was written and
gives the text, as long as no quote and no apostrophe follows.
-/

namespace SessionDispatch.Toml

variable {c : Char} {e s rest : List Char} {run : Nat}

def prepend (c : Char) (read : Option (List Char × List Char)) : Option (List Char × List Char) :=
  read.map fun (t, r) => (c :: t, r)

/-! ## Escapes -/

/-- What stands after a backslash is read as a character, whatever follows. -/
structure IsEscape (e : List Char) (c : Char) : Prop where
  reads : ∀ t, escape (e ++ t) = some (c, t)
  stays : ∀ t, continued? (e ++ t) = none

theorem isEscape_quote : IsEscape ['"'] '"' := ⟨fun _ => rfl, fun _ => rfl⟩

theorem numbered_append {width n : Nat} (hl : s.length = width)
    (hn : Numeral.ofDigits? 16 s = some n) (hv : n.isValidChar) (t : List Char) :
    numbered width (s ++ t) = some (Char.ofNat n, t) := by
  subst hl
  simp only [numbered, List.take_left, List.drop_left, if_true, hn]
  exact if_pos hv

theorem toNat_lt_of_isControl (h : isControl c = true) : c.toNat < 128 := by
  unfold isControl at h
  rcases of_decide_eq_true h with ⟨hlt, -⟩ | rfl
  · exact Nat.lt_of_lt_of_le hlt (by decide)
  · decide

theorem isEscape_of_isControl (h : isControl c = true) :
    IsEscape ('u' :: (Numeral.hex 4 c.toNat).map Char.toUpper) c := by
  have key : ∀ n : Fin 128, ((Numeral.hex 4 n).map Char.toUpper).length = 4 ∧
      Numeral.ofDigits? 16 ((Numeral.hex 4 n).map Char.toUpper) = some n.val := by decide +kernel
  have hlt := toNat_lt_of_isControl h
  obtain ⟨hl, hn⟩ := key ⟨c.toNat, hlt⟩
  refine ⟨fun t => ?_, fun _ => rfl⟩
  have hread := numbered_append hl hn (.inl (hlt.trans (by decide))) t
  rw [Char.ofNat_toNat] at hread
  exact hread

theorem isPlain_of_not_isControl (h : isControl c = false) (hn : c ≠ '\n') : isPlain c = true := by
  unfold isControl at h
  have h := of_decide_eq_false h
  refine decide_eq_true ?_
  by_cases ht : c = '\t'
  · exact .inl ht
  · refine .inr ⟨?_, fun hd => h (.inr hd)⟩
    exact not_lt.mp fun hlt => h (.inl ⟨hlt, ht, hn⟩)

/-- A character is written as an escape or as it stands. -/
theorem escaped_cases (several : Bool) (c : Char) :
    (∃ e, escaped several c = '\\' :: e ∧ IsEscape e c) ∨
      (escaped several c = [c] ∧ c ≠ '\\' ∧ c ≠ '\r' ∧
        (isPlain c = true ∨ several = true ∧ c = '\n')) := by
  unfold escaped
  split_ifs with h1 h2 h3 hseveral h4 h5 h6 hcontrol
  · exact .inl ⟨['b'], rfl, h1 ▸ ⟨fun _ => rfl, fun _ => rfl⟩⟩
  · exact .inl ⟨['t'], rfl, h2 ▸ ⟨fun _ => rfl, fun _ => rfl⟩⟩
  · exact .inr ⟨by rw [h3], by rw [h3]; decide, by rw [h3]; decide, .inr ⟨hseveral, h3⟩⟩
  · exact .inl ⟨['n'], rfl, h3 ▸ ⟨fun _ => rfl, fun _ => rfl⟩⟩
  · exact .inl ⟨['f'], rfl, h4 ▸ ⟨fun _ => rfl, fun _ => rfl⟩⟩
  · exact .inl ⟨['r'], rfl, h5 ▸ ⟨fun _ => rfl, fun _ => rfl⟩⟩
  · subst h6
    exact .inl ⟨['\\'], rfl, ⟨fun _ => rfl, fun _ => rfl⟩⟩
  · exact .inl ⟨_, rfl, isEscape_of_isControl hcontrol⟩
  · exact .inr ⟨rfl, h6, h5, .inl (isPlain_of_not_isControl (Bool.eq_false_iff.mpr hcontrol) h3)⟩

/-! ## One line -/

theorem basicBody_escape (h : IsEscape e c) (t : List Char) :
    basicBody ('\\' :: (e ++ t)) = prepend c (basicBody t) := by
  rw [basicBody]
  split
  · rename_i d r hd
    rw [h.reads] at hd
    obtain ⟨rfl, rfl⟩ := Prod.mk.inj (Option.some.inj hd)
    rfl
  · rename_i hd
    rw [h.reads] at hd
    cases hd

theorem basicBody_escaped (hq : c ≠ '"') (t : List Char) :
    basicBody (escaped false c ++ t) = prepend c (basicBody t) := by
  obtain ⟨e, he, hescape⟩ | ⟨he, hb, -, hplain⟩ := escaped_cases false c <;> rw [he]
  · exact basicBody_escape hescape t
  · have hplain := hplain.resolve_right fun h => absurd h.1 Bool.false_ne_true
    rw [List.singleton_append, basicBody, if_pos hplain]
    · rfl
    · exact hq
    · exact hb

/-- Where no quote stands as it is, every quote is an escape. -/
theorem basicBody_basicChars (s rest : List Char) :
    basicBody (basicChars false 0 0 s ++ '"' :: rest) = some (s, rest) := by
  induction s with
  | nil => rw [basicChars, List.nil_append, basicBody]
  | cons c s ih =>
      by_cases hq : c = '"'
      · subst hq
        have hescape := basicBody_escape isEscape_quote (basicChars false 0 0 s ++ '"' :: rest)
        rw [ih] at hescape
        exact hescape
      · rw [basicChars, if_neg hq, List.append_assoc, basicBody_escaped hq, ih]
        rfl

theorem literalBody_append (hs : ∀ c ∈ s, isPlain c = true) (ha : '\'' ∉ s) (rest : List Char) :
    literalBody (s ++ '\'' :: rest) = some (s, rest) := by
  induction s with
  | nil => rfl
  | cons c s ih =>
      obtain ⟨hc, hs⟩ := List.forall_mem_cons.mp hs
      obtain ⟨hne, ha⟩ := not_or.mp (mt List.mem_cons.mpr ha)
      rw [List.cons_append, literalBody, if_pos hc, ih hs ha]
      · rfl
      · exact Ne.symm hne

/-! ## Several lines -/

def lead (mark : Char) (s : List Char) : Nat := (s.takeWhile (· = mark)).length

variable {mark : Char}

theorem lead_cons (mark : Char) (s : List Char) : lead mark (mark :: s) = lead mark s + 1 := by
  simp [lead]

theorem lead_cons_of_ne (h : c ≠ mark) (s : List Char) : lead mark (c :: s) = 0 := by
  simp [lead, h]

theorem lead_eq_zero (h : s.head? ≠ some mark) : lead mark s = 0 := by
  cases s with
  | nil => rfl
  | cons c s => exact lead_cons_of_ne (fun hc => h (congrArg some hc)) s

/-- Three marks close a text if no other follows. -/
theorem lead_closing (h : s.head? ≠ some mark) : lead mark (mark :: mark :: mark :: s) = 3 := by
  rw [lead_cons, lead_cons, lead_cons, lead_eq_zero h]

theorem closing?_of_lt (h : lead mark s < 3) : closing? mark s = none := if_pos h

theorem closing?_of_le (h : 3 ≤ lead mark s) (h5 : lead mark s ≤ 5) :
    closing? mark s = some (List.replicate (lead mark s - 3) mark, s.drop (lead mark s)) := by
  have hmin : min (lead mark s - 3) 2 = lead mark s - 3 := by omega
  refine (if_neg (Nat.not_lt.mpr h)).trans ?_
  change some
    (List.replicate (min (lead mark s - 3) 2) mark, s.drop (min (lead mark s - 3) 2 + 3)) = _
  rw [hmin, Nat.sub_add_cancel h]

/-- A mark may stand before a text as part of the same text: there are too few marks to close it, or
it is closed by the last of them. -/
def Apart (mark : Char) (s : List Char) : Prop :=
  lead mark s < 2 ∨ 3 ≤ lead mark s ∧ lead mark s ≤ 4

theorem closing?_cons (h : Apart mark s) (hnone : closing? mark s ≠ none) :
    closing? mark (mark :: s) = prepend mark (closing? mark s) := by
  obtain hlt | ⟨hge, hle⟩ := h
  · exact absurd (closing?_of_lt (hlt.trans (by decide))) hnone
  · have hlead := lead_cons mark s
    rw [closing?_of_le (by omega) (by omega), closing?_of_le hge (by omega), hlead,
      Nat.sub_add_comm hge]
    rfl

theorem closing?_cons_eq_none (h : Apart mark s) (hnone : closing? mark s = none) :
    closing? mark (mark :: s) = none := by
  obtain hlt | ⟨hge, hle⟩ := h
  · exact closing?_of_lt (by rw [lead_cons]; omega)
  · rw [closing?_of_le hge (by omega)] at hnone
    cases hnone

/-- Whatever is done where the text goes on, a mark that stands apart is read before the text. -/
theorem body_mark {body : List Char → Option (List Char × List Char)}
    (hclosed : ∀ {s done}, closing? mark s = some done → body s = some done)
    (hopen : closing? mark (mark :: s) = none → body (mark :: s) = prepend mark (body s))
    (h : Apart mark s) :
    body (mark :: s) = prepend mark (body s) := by
  cases hs : closing? mark s with
  | none => exact hopen (closing?_cons_eq_none h hs)
  | some done =>
      have hcons := closing?_cons h (by rw [hs]; exact Option.some_ne_none done)
      rw [hs] at hcons
      rw [hclosed hs]
      exact hclosed hcons

theorem multiBasicBody_of_closing? {done : List Char × List Char} (h : closing? '"' s = some done) :
    multiBasicBody s = some done := by
  rw [multiBasicBody.eq_def, h]

theorem multiBasicBody_escape (h : IsEscape e c) (t : List Char) :
    multiBasicBody ('\\' :: (e ++ t)) = prepend c (multiBasicBody t) := by
  rw [multiBasicBody, closing?_of_lt (by rw [lead_cons_of_ne (by decide)]; decide)]
  dsimp only
  split
  · rename_i r hr
    rw [h.stays] at hr
    cases hr
  · split
    · rename_i d r hd
      rw [h.reads] at hd
      obtain ⟨rfl, rfl⟩ := Prod.mk.inj (Option.some.inj hd)
      rfl
    · rename_i hd
      rw [h.reads] at hd
      cases hd

theorem multiBasicBody_cons (hclosing : closing? '"' (c :: s) = none) (hb : c ≠ '\\')
    (hr : c ≠ '\r') (hc : isPlain c = true ∨ c = '\n') :
    multiBasicBody (c :: s) = prepend c (multiBasicBody s) := by
  rw [multiBasicBody, hclosing, if_pos hc]
  · rfl
  · exact hb
  · exact fun _ h => absurd h hr

theorem multiBasicBody_quote (h : Apart '"' s) :
    multiBasicBody ('"' :: s) = prepend '"' (multiBasicBody s) :=
  body_mark multiBasicBody_of_closing?
    (fun hclosing => multiBasicBody_cons hclosing (by decide) (by decide) (.inl rfl)) h

theorem multiBasicBody_escaped (hq : c ≠ '"') (t : List Char) :
    multiBasicBody (escaped true c ++ t) = prepend c (multiBasicBody t) := by
  obtain ⟨e, he, hescape⟩ | ⟨he, hb, hr, hc⟩ := escaped_cases true c <;> rw [he]
  · exact multiBasicBody_escape hescape t
  · have hclosing : closing? '"' (c :: t) = none :=
      closing?_of_lt (by rw [lead_cons_of_ne hq]; decide)
    exact multiBasicBody_cons hclosing hb hr (hc.imp_right And.right)

/-- After so many quotes in a row, not more follow than fit before the closing ones. -/
theorem lead_basicChars (hrun : run ≤ 2) (hrest : rest.head? ≠ some '"') (s : List Char) :
    lead '"' (basicChars true 2 run s ++ '"' :: '"' :: '"' :: rest) ≤ 2 - run ∨
      3 ≤ lead '"' (basicChars true 2 run s ++ '"' :: '"' :: '"' :: rest) ∧
        lead '"' (basicChars true 2 run s ++ '"' :: '"' :: '"' :: rest) ≤ 5 - run := by
  induction s generalizing run with
  | nil =>
      rw [basicChars, List.nil_append, lead_closing hrest]
      omega
  | cons c s ih =>
      by_cases hq : c = '"'
      · rw [basicChars, if_pos hq]
        split_ifs with hlt
        · rw [List.cons_append, lead_cons]
          have hnext := ih (show run + 1 ≤ 2 by omega)
          omega
        · rw [List.cons_append, lead_cons_of_ne (by decide)]
          exact .inl (Nat.zero_le _)
      · rw [basicChars, if_neg hq, List.append_assoc]
        obtain ⟨e, he, -⟩ | ⟨he, -⟩ := escaped_cases true c <;>
          rw [he, List.cons_append, lead_cons_of_ne]
        · exact .inl (Nat.zero_le _)
        · decide
        · exact .inl (Nat.zero_le _)
        · exact hq

/-- At most two quotes in a row stand as they are, so that no three of them close the text
too soon. -/
theorem multiBasicBody_basicChars (hrun : run ≤ 2) (hrest : rest.head? ≠ some '"') (s : List Char) :
    multiBasicBody (basicChars true 2 run s ++ '"' :: '"' :: '"' :: rest) = some (s, rest) := by
  induction s generalizing run with
  | nil =>
      have hthree := lead_closing hrest
      rw [basicChars, List.nil_append]
      apply multiBasicBody_of_closing?
      rw [closing?_of_le (by omega) (by omega), hthree]
      rfl
  | cons c s ih =>
      by_cases hq : c = '"'
      · subst hq
        rw [basicChars, if_pos rfl]
        split_ifs with hlt
        · have happart :
              Apart '"' (basicChars true 2 (run + 1) s ++ '"' :: '"' :: '"' :: rest) := by
            have hlead := lead_basicChars (show run + 1 ≤ 2 by omega) hrest s
            unfold Apart
            omega
          rw [List.cons_append, multiBasicBody_quote happart, ih (by omega)]
          rfl
        · have hescape := multiBasicBody_escape isEscape_quote
            (basicChars true 2 0 s ++ '"' :: '"' :: '"' :: rest)
          rw [ih (Nat.zero_le 2)] at hescape
          exact hescape
      · rw [basicChars, if_neg hq, List.append_assoc, multiBasicBody_escaped hq, ih (Nat.zero_le 2)]
        rfl

theorem multiLiteralBody_of_closing? {done : List Char × List Char}
    (h : closing? '\'' s = some done) :
    multiLiteralBody s = some done := by
  rw [multiLiteralBody.eq_def, h]

theorem multiLiteralBody_cons (hclosing : closing? '\'' (c :: s) = none) (hr : c ≠ '\r')
    (hc : isPlain c = true ∨ c = '\n') :
    multiLiteralBody (c :: s) = prepend c (multiLiteralBody s) := by
  rw [multiLiteralBody, hclosing, if_pos hc]
  · rfl
  · exact fun _ h => absurd h hr

theorem multiLiteralBody_apostrophe (h : Apart '\'' s) :
    multiLiteralBody ('\'' :: s) = prepend '\'' (multiLiteralBody s) :=
  body_mark multiLiteralBody_of_closing?
    (fun hclosing => multiLiteralBody_cons hclosing (by decide) (.inl rfl)) h

/-- The marks in front of a text are its own, or all of it and some of what follows. -/
theorem lead_append (mark : Char) (s t : List Char) :
    lead mark (s ++ t) = lead mark s ∨ lead mark s = s.length ∧
      lead mark (s ++ t) = s.length + lead mark t := by
  induction s with
  | nil => exact .inr ⟨rfl, (Nat.zero_add _).symm⟩
  | cons c s ih =>
      by_cases hc : c = mark
      · subst hc
        rw [List.cons_append, lead_cons, lead_cons, List.length_cons]
        omega
      · rw [List.cons_append, lead_cons_of_ne hc, lead_cons_of_ne hc]
        exact .inl rfl

theorem multiLiteralBody_append (hs : ∀ c ∈ s, isControl c = false) (ha : longestRun '\'' s ≤ 2)
    (hrest : rest.head? ≠ some '\'') :
    multiLiteralBody (s ++ '\'' :: '\'' :: '\'' :: rest) = some (s, rest) := by
  have hthree := lead_closing hrest
  induction s with
  | nil =>
      apply multiLiteralBody_of_closing?
      rw [List.nil_append, closing?_of_le (by omega) (by omega), hthree]
      rfl
  | cons c s ih =>
      obtain ⟨hc, hs⟩ := List.forall_mem_cons.mp hs
      obtain ⟨hlead, ha⟩ := Nat.max_le.mp ha
      have hread := ih hs ha
      by_cases hq : c = '\''
      · subst hq
        have happart : Apart '\'' (s ++ '\'' :: '\'' :: '\'' :: rest) := by
          have hlead : lead '\'' ('\'' :: s) ≤ 2 := hlead
          rw [lead_cons] at hlead
          have happend := lead_append '\'' s ('\'' :: '\'' :: '\'' :: rest)
          unfold Apart
          omega
        rw [List.cons_append, multiLiteralBody_apostrophe happart, hread]
        rfl
      · have hclosing : closing? '\'' (c :: (s ++ '\'' :: '\'' :: '\'' :: rest)) = none :=
          closing?_of_lt (by rw [lead_cons_of_ne hq]; decide)
        have hr : c ≠ '\r' := by
          rintro rfl
          exact absurd hc (by decide)
        have hplain : isPlain c = true ∨ c = '\n' := by
          by_cases hn : c = '\n'
          · exact .inr hn
          · exact .inl (isPlain_of_not_isControl hc hn)
        rw [List.cons_append, multiLiteralBody_cons hclosing hr hplain, hread]
        rfl

/-! ## All quotings -/

theorem newline?_of_head? (hn : s.head? ≠ some '\n') (hr : s.head? ≠ some '\r') :
    newline? s = none := by
  unfold newline?
  split
  · exact absurd rfl hn
  · exact absurd rfl hr
  · rfl

theorem trimFirst_cons (hn : c ≠ '\n') (hr : c ≠ '\r') (s : List Char) :
    trimFirst (c :: s) = c :: s := by
  have hnone : newline? (c :: s) = none :=
    newline?_of_head? (fun h => hn (Option.some.inj h)) fun h => hr (Option.some.inj h)
  rw [trimFirst, hnone, Option.getD_none]

/-- A text that is written without a line feed does not begin with a line end. -/
theorem trimFirst_basicChars (hn : '\n' ∉ s) (t : List Char) :
    trimFirst (basicChars true 2 0 s ++ '"' :: t) = basicChars true 2 0 s ++ '"' :: t := by
  cases s with
  | nil => exact trimFirst_cons (by decide) (by decide) _
  | cons c s =>
      by_cases hq : c = '"'
      · subst hq
        exact trimFirst_cons (by decide) (by decide) _
      · rw [basicChars, if_neg hq]
        obtain ⟨e, he, -⟩ | ⟨he, -, hr, -⟩ := escaped_cases true c <;> rw [he]
        · exact trimFirst_cons (by decide) (by decide) _
        · exact trimFirst_cons (fun h => hn (h ▸ List.mem_cons_self)) hr _

theorem quoted_basic (h : ∀ t, s ≠ '"' :: '"' :: t) :
    quoted ('"' :: s) = (basicBody s).map fun (t, r) => (String.ofList t, r) := by
  unfold quoted
  split
  · rename_i t ht
    exact absurd (List.cons.inj ht).2 (h t)
  · rename_i ht
    exact absurd (List.cons.inj ht).1 (by decide)
  · rfl

theorem quoted_literal (h : ∀ t, s ≠ '\'' :: '\'' :: t) :
    quoted ('\'' :: s) = (literalBody s).map fun (t, r) => (String.ofList t, r) := by
  unfold quoted
  split
  · rename_i ht
    exact absurd (List.cons.inj ht).1 (by decide)
  · rename_i t ht
    exact absurd (List.cons.inj ht).2 (h t)
  · rfl

theorem basicChars_ne (hrest : rest.head? ≠ some '"') (s t : List Char) :
    basicChars false 0 0 s ++ '"' :: rest ≠ '"' :: '"' :: t := by
  intro h
  cases s with
  | nil =>
      rw [basicChars, List.nil_append] at h
      exact hrest (congrArg List.head? (List.cons.inj h).2)
  | cons c s =>
      by_cases hq : c = '"'
      · rw [basicChars, if_pos hq] at h
        exact absurd (List.cons.inj h).1 (by decide)
      · rw [basicChars, if_neg hq] at h
        obtain ⟨e, he, -⟩ | ⟨he, -⟩ := escaped_cases false c <;> rw [he] at h
        · exact absurd (List.cons.inj h).1 (by decide)
        · exact hq (List.cons.inj h).1

/-! ### The choice of a quoting -/

theorem not_mem_of_longestRun (h : longestRun mark s = 0) : mark ∉ s := by
  induction s with
  | nil => exact List.not_mem_nil
  | cons c s ih =>
      obtain ⟨hlead, hrest⟩ := Nat.max_eq_zero_iff.mp h
      have hlead : lead mark (c :: s) = 0 := hlead
      refine mt List.mem_cons.mp (not_or.mpr ⟨?_, ih hrest⟩)
      rintro rfl
      rw [lead_cons] at hlead
      cases hlead

theorem quotingOf_eq_literal (h : quotingOf s = .literal) :
    (∀ c ∈ s, isControl c = false) ∧ '\'' ∉ s ∧ '\n' ∉ s := by
  simp only [quotingOf] at h
  split_ifs at h with h1 h2
  simp only [Bool.and_eq_true, Bool.not_eq_true', List.any_eq_false, decide_eq_true_eq] at h2
  obtain ⟨⟨hcontrol, hmarks⟩, hseveral⟩ := h2
  refine ⟨fun c hc => Bool.eq_false_iff.mpr (hcontrol c hc), not_mem_of_longestRun hmarks, ?_⟩
  simpa using hseveral

theorem quotingOf_eq_multiLiteral (h : quotingOf s = .multiLiteral) :
    (∀ c ∈ s, isControl c = false) ∧ longestRun '\'' s ≤ 2 := by
  simp only [quotingOf] at h
  split_ifs at h with h1 h2 h3 h4
  simp only [Bool.and_eq_true, Bool.not_eq_true', List.any_eq_false, decide_eq_true_eq] at h4
  exact ⟨fun c hc => Bool.eq_false_iff.mpr (h4.1 c hc), h4.2⟩

theorem isPlain_of_literal (h : quotingOf s = .literal) (hc : c ∈ s) : isPlain c = true := by
  obtain ⟨hcontrol, -, hn⟩ := quotingOf_eq_literal h
  exact isPlain_of_not_isControl (hcontrol c hc) (ne_of_mem_of_not_mem hc hn)

/-- A line feed that is written for the reader alone is dropped. -/
theorem trimFirst_opening {body : List Char} (h : '\n' ∉ s → trimFirst body = body) :
    trimFirst ((if s.contains '\n' then ['\n'] else []) ++ body) = body := by
  split_ifs with hn
  · rfl
  · exact h (by simpa using hn)

/-- A text is read back, whichever quoting it is written in. -/
theorem quoted_quotedChars (s : List Char) (hq : rest.head? ≠ some '"')
    (ha : rest.head? ≠ some '\'') :
    quoted (quotedChars s ++ rest) = some (String.ofList s, rest) := by
  unfold quotedChars
  cases hs : quotingOf s with
  | basic =>
      rw [List.cons_append, List.append_assoc, List.singleton_append,
        quoted_basic (basicChars_ne hq s), basicBody_basicChars]
      rfl
  | literal =>
      obtain ⟨-, hmark, -⟩ := quotingOf_eq_literal hs
      have hne : ∀ t, s ++ '\'' :: rest ≠ '\'' :: '\'' :: t := by
        intro t h
        cases s with
        | nil => exact ha (congrArg List.head? (List.cons.inj h).2)
        | cons c s => exact hmark ((List.cons.inj h).1 ▸ List.mem_cons_self)
      rw [List.cons_append, List.append_assoc, List.singleton_append, quoted_literal hne,
        literalBody_append (fun c hc => isPlain_of_literal hs hc) hmark]
      rfl
  | multiBasic =>
      have htrim : '\n' ∉ s → _ := fun hn => trimFirst_basicChars hn ('"' :: '"' :: rest)
      simp only [List.cons_append, List.nil_append, List.append_assoc, quoted,
        trimFirst_opening htrim, multiBasicBody_basicChars (Nat.zero_le 2) hq]
      rfl
  | multiLiteral =>
      obtain ⟨hcontrol, hmarks⟩ := quotingOf_eq_multiLiteral hs
      have htrim : '\n' ∉ s →
          trimFirst (s ++ '\'' :: '\'' :: '\'' :: rest) = s ++ '\'' :: '\'' :: '\'' :: rest := by
        intro hn
        cases s with
        | nil => exact trimFirst_cons (by decide) (by decide) _
        | cons c s =>
            refine trimFirst_cons (fun h => hn (h ▸ List.mem_cons_self)) ?_ _
            rintro rfl
            exact absurd (hcontrol _ List.mem_cons_self) (by decide)
      simp only [List.cons_append, List.nil_append, List.append_assoc, quoted,
        trimFirst_opening htrim, multiLiteralBody_append hcontrol hmarks ha]
      rfl

end SessionDispatch.Toml
