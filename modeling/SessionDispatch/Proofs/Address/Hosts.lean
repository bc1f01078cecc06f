import SessionDispatch.Address.Socket
import SessionDispatch.Proofs.Text.Scanning

/-!
# Addresses are read as they are written

The text of an address, however its zero groups are shortened, is read back as this address.
-/

namespace SessionDispatch

namespace Ipv4

open Scanner Numeral

theorem octet_decimal (n : UInt8) {rest : List Char} (hrest : ∀ c ∈ rest.head?, ¬ isDigit 10 c) :
    octet (decimal n.toNat ++ rest) = some (n, rest) := by
  have hrun : Scanner.run (isDigit 10) (decimal n.toNat ++ rest) = some (decimal n.toNat, rest) :=
    run_append (fun _ hc => isDigit_of_mem_decimal hc) hrest
  unfold octet
  rw [bind_of_some hrun]
  have hzero : ¬ ((decimal n.toNat).head? = some '0' ∧ decimal n.toNat ≠ ['0']) :=
    fun h => h.2 (decimal_of_head?_eq_zero h.1)
  rw [if_neg hzero, unsigned?_decimal (Nat.le_of_lt_succ n.toNat_lt)]
  change some (n.toNat.toUInt8, rest) = some (n, rest)
  rw [Nat.toUInt8_eq, UInt8.ofNat_toNat]

/-- An octet ends where its digits end. -/
theorem octet_eq (s : List Char) :
    octet s = none ∨ ∃ n, octet s = some (n, s.dropWhile (isDigit 10)) := by
  have hrun :
      Scanner.run (isDigit 10) s = some (s.takeWhile (isDigit 10), s.dropWhile (isDigit 10)) := rfl
  unfold octet
  rw [bind_of_some hrun]
  by_cases hzero : (s.takeWhile (isDigit 10)).head? = some '0' ∧ s.takeWhile (isDigit 10) ≠ ['0']
  · rw [if_pos hzero]
    exact .inl rfl
  · rw [if_neg hzero]
    cases unsigned? 255 (s.takeWhile (isDigit 10)) with
    | none => exact .inl rfl
    | some n => exact .inr ⟨_, rfl⟩

theorem scanner_chars (ip : Ipv4) : scanner ip.chars = some (ip, []) := by
  have hlast : octet (decimal ip.d.toNat) = some (ip.d, []) := by
    have hread : octet (decimal ip.d.toNat ++ []) = some (ip.d, []) := octet_decimal ip.d nofun
    rwa [List.append_nil] at hread
  have hdot : ∀ s : List Char, ∀ c ∈ ('.' :: s).head?, ¬ isDigit 10 c := by simp; decide
  unfold scanner chars
  rw [bind_of_some (octet_decimal ip.a (hdot _)), bind_of_some (char_cons ..),
    bind_of_some (octet_decimal ip.b (hdot _)), bind_of_some (char_cons ..),
    bind_of_some (octet_decimal ip.c (hdot _)), bind_of_some (char_cons ..), bind_of_some hlast]
  rfl

theorem scanner_of_not_digit {s : List Char} (hs : ∀ c ∈ s.head?, ¬ isDigit 10 c) :
    scanner s = none := by
  have hrun : Scanner.run (isDigit 10) s = some ([], s) := run_append (s := []) nofun hs
  refine bind_of_none ?_
  unfold octet
  rw [bind_of_some hrun]
  rfl

/-- There is no IPv4 address without a point. -/
theorem scanner_of_not_mem {s : List Char} (hs : '.' ∉ s) : scanner s = none := by
  unfold scanner
  obtain hn | ⟨n, hn⟩ := octet_eq s
  · exact bind_of_none hn
  · rw [bind_of_some hn]
    refine bind_of_none (char_of_head?_ne fun hc => hs ?_)
    exact (List.dropWhile_suffix _).subset (List.mem_of_mem_head? hc)

end Ipv4

namespace Ipv6

open Scanner Numeral

theorem group_toDigits (g : UInt16) {rest : List Char} (hrest : ∀ c ∈ rest.head?, ¬ isDigit 16 c) :
    group (Nat.toDigits 16 g.toNat ++ rest) = some (g, rest) := by
  have hrun : Scanner.run (isDigit 16) (Nat.toDigits 16 g.toNat ++ rest) =
      some (Nat.toDigits 16 g.toNat, rest) :=
    run_append (fun _ hc => isDigit_of_mem_toDigits (by decide) (by decide) hc) hrest
  have hlen : (Nat.toDigits 16 g.toNat).length ≤ 4 :=
    (Nat.length_toDigits_le_iff (by decide) (by decide)).mpr g.toNat_lt
  unfold group
  rw [bind_of_some hrun, if_neg (Nat.not_lt.mpr hlen), ofDigits?_toDigits (by decide) (by decide)]
  change some (g.toNat.toUInt16, rest) = some (g, rest)
  rw [Nat.toUInt16_eq, UInt16.ofNat_toNat]

theorem group_of_not_digit {s : List Char} (hs : ∀ c ∈ s.head?, ¬ isDigit 16 c) :
    group s = none := by
  have hrun : Scanner.run (isDigit 16) s = some ([], s) := run_append (s := []) nofun hs
  unfold group
  rw [bind_of_some hrun]
  rfl

def tailChars (gs : List UInt16) : List Char := gs.flatMap fun g => ':' :: Nat.toDigits 16 g.toNat

theorem groupChars_cons (g : UInt16) (gs : List UInt16) :
    groupChars (g :: gs) = Nat.toDigits 16 g.toNat ++ tailChars gs := by
  induction gs generalizing g with
  | nil => simp [groupChars, tailChars]
  | cons g' gs ih => simp [groupChars, tailChars, ih g']

/-! ## Parts -/

section Part

variable {first : Bool} {room : Nat} {s t t' : List Char}

theorem embedded_eq_none (hip : Ipv6.separated first Ipv4.scanner s = none) :
    (do
      if room = 0 then failure
      return (groupsOf (← Ipv6.separated first Ipv4.scanner), true) : Scanner
        (List UInt16 × Bool)) s = none := by
  by_cases hroom : room = 0
  · rw [if_pos hroom]
    rfl
  · rw [if_neg hroom]
    exact bind_of_none hip

theorem part_stop (hip : Ipv6.separated first Ipv4.scanner s = none)
    (hg : Ipv6.separated first group s = none) :
    part first (room + 1) s = some (([], false), s) := by
  unfold part
  exact (orElse_of_none (embedded_eq_none hip)).trans (orElse_of_none (bind_of_none hg))

theorem part_cons (hip : Ipv6.separated first Ipv4.scanner s = none) {g : UInt16}
    (hg : Ipv6.separated first group s = some (g, t)) {gs : List UInt16} {v4 : Bool}
    (hp : part false room t = some ((gs, v4), t')) :
    part first (room + 1) s = some ((g :: gs, v4), t') := by
  unfold part
  refine (orElse_of_none (embedded_eq_none hip)).trans (orElse_of_some ?_)
  exact (bind_of_some hg).trans (bind_of_some hp)

theorem part_embedded (hroom : room ≠ 0) {ip : Ipv4}
    (hip : Ipv6.separated first Ipv4.scanner s = some (ip, t)) :
    part first (room + 1) s = some ((groupsOf ip, true), t) := by
  unfold part
  refine orElse_of_some ?_
  rw [if_neg hroom]
  exact bind_of_some hip

end Part

def partChars : Bool → List UInt16 → List Char
  | true => groupChars
  | false => tailChars

/-- Where the groups of a part end: at the end of the text or at two colons. -/
def Ends (rest : List Char) : Prop := rest = [] ∨ ∃ s, rest = ':' :: ':' :: s

theorem not_isDigit_of_ends {rest : List Char} (he : Ends rest) (gs : List UInt16) :
    ∀ c ∈ (tailChars gs ++ rest).head?, ¬ isDigit 16 c := by
  have hcolon : ¬ isDigit 16 ':' := not_isDigit_of_mem (by simp) _
  intro c hc
  obtain rfl : c = ':' := by
    cases gs with
    | nil =>
        obtain rfl | ⟨s, rfl⟩ := he
        · cases hc
        · simpa [tailChars, eq_comm] using hc
    | cons g gs => simpa [tailChars, eq_comm] using hc
  exact hcolon

theorem separated_group {rest : List Char} (he : Ends rest) (first : Bool) (g : UInt16)
    (gs : List UInt16) :
    Ipv6.separated first group (partChars first (g :: gs) ++ rest) =
      some (g, tailChars gs ++ rest) := by
  have hg := group_toDigits g (not_isDigit_of_ends he gs)
  cases first with
  | true =>
      rw [partChars, groupChars_cons, List.append_assoc]
      exact hg
  | false =>
      have hcons : tailChars (g :: gs) ++ rest =
          ':' :: (Nat.toDigits 16 g.toNat ++ (tailChars gs ++ rest)) := by
        simp [tailChars]
      rw [partChars, hcons]
      exact (bind_of_some (char_cons ..)).trans hg

theorem separated_group_of_ends {rest : List Char} (he : Ends rest) (first : Bool) :
    Ipv6.separated first group rest = none := by
  obtain rfl | ⟨s, rfl⟩ := he
  · cases first <;> rfl
  · have hcolon : ¬ isDigit 16 ':' := not_isDigit_of_mem (by simp) _
    have hg : ∀ s, group (':' :: s) = none := fun s => group_of_not_digit (by simpa using hcolon)
    cases first with
    | true => exact hg _
    | false => exact (bind_of_some (char_cons ..)).trans (hg s)

/-- Groups are written in digits and colons. -/
theorem mem_partChars {first : Bool} {gs : List UInt16} {c : Char} (hc : c ∈ partChars first gs) :
    c = ':' ∨ ∃ g : UInt16, c ∈ Nat.toDigits 16 g.toNat := by
  have htail : ∀ gs, c ∈ tailChars gs → c = ':' ∨ ∃ g : UInt16, c ∈ Nat.toDigits 16 g.toNat :=
    fun gs hm => by
    obtain ⟨g, -, hg⟩ := List.mem_flatMap.mp hm
    exact (List.mem_cons.mp hg).imp_right fun hg => ⟨g, hg⟩
  cases first with
  | false => exact htail gs hc
  | true =>
      cases gs with
      | nil => cases hc
      | cons g gs =>
          rw [partChars, groupChars_cons, List.mem_append] at hc
          exact hc.elim (fun hg => .inr ⟨g, hg⟩) (htail gs)

theorem not_mem_partChars (first : Bool) (gs : List UInt16) : '.' ∉ partChars first gs := by
  intro hc
  cases mem_partChars hc with
  | inl hc => exact absurd hc (by decide)
  | inr hg =>
      obtain ⟨g, hg⟩ := hg
      exact not_mem_toDigits (by decide) (by decide) (by simp) g.toNat hg

theorem separated_of_not_mem {s : List Char} (hs : '.' ∉ s) (first : Bool) :
    Ipv6.separated first Ipv4.scanner s = none := by
  cases first with
  | true => exact Ipv4.scanner_of_not_mem hs
  | false =>
      cases s with
      | nil => rfl
      | cons c s =>
          by_cases hc : c = ':'
          · subst hc
            exact (bind_of_some (char_cons ..)).trans
              (Ipv4.scanner_of_not_mem fun hm => hs (.tail _ hm))
          · exact bind_of_none (char_of_head?_ne (by simpa using hc))

/-- A part is read up to its end. -/
theorem part_partChars {rest : List Char} (he : Ends rest) (hdot : '.' ∉ rest) (first : Bool)
    (gs : List UInt16) {room : Nat} (hlen : gs.length ≤ room) :
    part first room (partChars first gs ++ rest) = some ((gs, false), rest) := by
  have hip : Ipv6.separated first Ipv4.scanner (partChars first gs ++ rest) = none := by
    refine separated_of_not_mem ?_ first
    rw [List.mem_append, not_or]
    exact ⟨not_mem_partChars first gs, hdot⟩
  induction gs generalizing first room with
  | nil =>
      have hnil : partChars first [] ++ rest = rest := by cases first <;> rfl
      rw [hnil] at hip ⊢
      cases room with
      | zero => rfl
      | succ room => exact part_stop hip (separated_group_of_ends he first)
  | cons g gs ih =>
      cases room with
      | zero => cases hlen
      | succ room =>
          refine part_cons hip (separated_group he first g gs)
            (ih false (Nat.le_of_succ_le_succ hlen) ?_)
          refine separated_of_not_mem ?_ false
          rw [List.mem_append, not_or]
          exact ⟨not_mem_partChars false gs, hdot⟩

/-! ## Runs of zero groups -/

theorem leadingZeros_spec (gs : List UInt16) :
    gs = List.replicate (leadingZeros gs) 0 ++ gs.drop (leadingZeros gs) := by
  have hzeros : gs.takeWhile (· = 0) = List.replicate (leadingZeros gs) 0 :=
    List.eq_replicate_of_mem fun g hg => by simpa using List.all_eq_true.mp List.all_takeWhile g hg
  have hsplit : gs.takeWhile (· = 0) ++ gs.dropWhile (· = 0) = gs := List.takeWhile_append_dropWhile
  have hdrop : gs.drop (leadingZeros gs) = gs.dropWhile (· = 0) := by
    have hleft := congrArg (List.drop (leadingZeros gs)) hsplit
    rwa [leadingZeros, List.drop_left, eq_comm] at hleft
  rw [hdrop, ← hzeros, hsplit]

/-- The run that is shortened consists of zeros. -/
theorem longestZeros_spec (gs : List UInt16) :
    gs = gs.take (longestZeros gs).1 ++ List.replicate (longestZeros gs).2 0 ++
      gs.drop ((longestZeros gs).1 + (longestZeros gs).2) := by
  induction gs with
  | nil => rfl
  | cons g gs ih =>
      rw [longestZeros]
      dsimp only
      split
      · rw [Nat.zero_add]
        exact leadingZeros_spec (g :: gs)
      · rw [Nat.add_right_comm]
        exact congrArg (g :: ·) ih

theorem ofParts_eq {ip : Ipv6} {head tail : List UInt16} {n : Nat}
    (hip : ip.groups = head ++ List.replicate n 0 ++ tail) : ofParts head tail = ip := by
  obtain ⟨groups, hlen⟩ := ip
  obtain rfl : groups = head ++ List.replicate n 0 ++ tail := hip
  have hn : 8 - head.length - tail.length = n := by
    simp only [List.length_append, List.length_replicate] at hlen
    omega
  simp only [ofParts, hn, mk.injEq]
  exact List.take_left' hlen

theorem groupsOf_bytes (g : UInt16) :
    (g / 256).toUInt8.toUInt16 * 256 + g.toUInt8.toUInt16 = g := by
  have hg := g.toNat_lt
  refine UInt16.toNat_inj.mp ?_
  simp only [UInt16.toNat_add, UInt16.toNat_mul, UInt8.toNat_toUInt16, UInt16.toNat_toUInt8,
    UInt16.toNat_div, UInt16.toNat_ofNat, Nat.reducePow, Nat.reduceMod]
  omega

/-- The last two groups of a mapped address are those of its IPv4 address. -/
theorem groups_of_mapped? {ip : Ipv6} {v4 : Ipv4} (hm : ip.mapped? = some v4) :
    ip.groups = [0, 0, 0, 0, 0, 0xffff] ++ groupsOf v4 := by
  unfold mapped? at hm
  split at hm
  · rename_i g h hgroups
    obtain rfl := Option.some.inj hm
    rw [hgroups, groupsOf, groupsOf_bytes, groupsOf_bytes]
    rfl
  · cases hm

/-! ## Whole addresses -/

theorem part_groupChars {room : Nat} {gs : List UInt16} (hlen : gs.length ≤ room) :
    part true room (groupChars gs) = some ((gs, false), []) := by
  have hread := part_partChars (.inl rfl) List.not_mem_nil true gs hlen
  rwa [partChars, List.append_nil] at hread

/-- The groups are read up to the two colons. -/
theorem part_shortened {room : Nat} {head : List UInt16} (hlen : head.length ≤ room)
    (tail : List UInt16) :
    part true room (groupChars head ++ "::".toList ++ groupChars tail) =
      some ((head, false), "::".toList ++ groupChars tail) := by
  have hdot : '.' ∉ "::".toList ++ groupChars tail := by
    rw [List.mem_append, not_or]
    exact ⟨by decide, not_mem_partChars true tail⟩
  rw [List.append_assoc]
  exact part_partChars (.inr ⟨groupChars tail, rfl⟩) hdot true head hlen

theorem scanner_of_groupChars {ip : Ipv6} : scanner (groupChars ip.groups) = some (ip, []) := by
  have hip : ip.groups = ip.groups ++ List.replicate 0 0 ++ [] := by simp
  unfold scanner
  rw [bind_of_some (part_groupChars (Nat.le_of_eq ip.length_groups))]
  dsimp only
  rw [if_pos ip.length_groups, ofParts_eq hip]
  rfl

theorem scanner_of_shortened {ip : Ipv6} {head tail : List UInt16} {n : Nat}
    (hip : ip.groups = head ++ List.replicate n 0 ++ tail) (hn : 2 ≤ n) :
    scanner (groupChars head ++ "::".toList ++ groupChars tail) = some (ip, []) := by
  have hlen : head.length + n + tail.length = 8 := by
    have h8 := ip.length_groups
    rw [hip, List.length_append, List.length_append, List.length_replicate] at h8
    exact h8
  have htail : part true (7 - head.length) (groupChars tail) = some ((tail, false), []) :=
    part_groupChars (by omega)
  unfold scanner
  rw [bind_of_some (part_shortened (by omega) tail)]
  dsimp only
  rw [if_neg (by omega), if_neg Bool.false_ne_true, bind_of_some (literal_append _ _),
    bind_of_some htail]
  dsimp only
  rw [ofParts_eq hip]
  rfl

theorem scanner_of_mapped {ip : Ipv6} {v4 : Ipv4} (hm : ip.mapped? = some v4) :
    scanner ("::ffff:".toList ++ v4.chars) = some (ip, []) := by
  have hcolon : ∀ (base : Nat) (s : List Char), ∀ c ∈ (':' :: s).head?, ¬ isDigit base c :=
    fun base s => by
    simpa using not_isDigit_of_mem (c := ':') (by simp) base
  have hhead : part true 8 ("::".toList ++ ("ffff:".toList ++ v4.chars)) =
      some (([], false), "::".toList ++ ("ffff:".toList ++ v4.chars)) :=
    part_stop (Ipv4.scanner_of_not_digit (hcolon 10 _)) (group_of_not_digit (hcolon 16 _))
  have hlast : part false 6 (':' :: v4.chars) = some ((groupsOf v4, true), []) :=
    part_embedded (by decide) ((bind_of_some (char_cons ..)).trans v4.scanner_chars)
  have htail :
      part true 7 ("ffff:".toList ++ v4.chars) = some ((0xffff :: groupsOf v4, true), []) := by
    have hip : Ipv6.separated true Ipv4.scanner ("ffff:".toList ++ v4.chars) = none :=
      Ipv4.scanner_of_not_digit (s := 'f' :: _) (by simp; decide)
    have hg := group_toDigits 0xffff (hcolon 16 v4.chars)
    have hdigits : Nat.toDigits 16 (0xffff : UInt16).toNat = "ffff".toList := by decide
    rw [hdigits] at hg
    exact part_cons hip hg hlast
  have htext : "::ffff:".toList ++ v4.chars = "::".toList ++ ("ffff:".toList ++ v4.chars) := rfl
  have hip : ip.groups = [] ++ List.replicate 5 0 ++ 0xffff :: groupsOf v4 := groups_of_mapped? hm
  unfold scanner
  rw [htext, bind_of_some hhead]
  dsimp only
  rw [if_neg (by decide), if_neg Bool.false_ne_true, bind_of_some (literal_append _ _)]
  refine (bind_of_some htail).trans ?_
  dsimp only
  rw [ofParts_eq hip]
  rfl

theorem scanner_chars (ip : Ipv6) : scanner ip.chars = some (ip, []) := by
  unfold chars
  cases hm : ip.mapped? with
  | some v4 => exact scanner_of_mapped hm
  | none =>
      dsimp only
      split
      · exact scanner_of_groupChars
      · rename_i hlong
        exact scanner_of_shortened (longestZeros_spec ip.groups) (Nat.not_lt.mp hlong)

/-- No IPv6 address begins like an IPv4 address. -/
theorem ipv4_scanner_chars (ip : Ipv6) : Ipv4.scanner ip.chars = none := by
  unfold chars
  cases hm : ip.mapped? with
  | some v4 =>
      have hcolon : ¬ isDigit 10 ':' := not_isDigit_of_mem (by simp) _
      exact Ipv4.scanner_of_not_digit (s := ':' :: _) (by simpa using hcolon)
  | none =>
      have hdot : ∀ gs, '.' ∉ groupChars gs := not_mem_partChars true
      refine Ipv4.scanner_of_not_mem ?_
      dsimp only
      split
      · exact hdot _
      · rw [List.mem_append, List.mem_append, not_or, not_or]
        exact ⟨⟨hdot _, by decide⟩, hdot _⟩

end Ipv6

namespace Host

open Scanner

theorem parse?_chars (host : Host) : parse? host.chars = some host := by
  have hread : scanner host.chars = some (host, []) := by
    cases host with
    | v4 ip => exact orElse_of_some (map_of_some ip.scanner_chars)
    | v6 ip =>
        exact (orElse_of_none (map_of_none ip.ipv4_scanner_chars)).trans
          (map_of_some ip.scanner_chars)
  rw [parse?, whole, hread]

end Host

end SessionDispatch
