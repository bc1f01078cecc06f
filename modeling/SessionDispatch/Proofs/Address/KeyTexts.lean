import Mathlib.Data.List.Basic
import SessionDispatch.Proofs.Address.Forms
import SessionDispatch.Proofs.Address.Keys

/-!
# Which texts are keys

A key is the canonical text of a host, a hyphen and the numeral of a port. It is read back as the
address that it was made of, and reading accepts no other text: neither another spelling of a port,
nor another spelling of a host, nor a text that has no single hyphen in it.
-/

namespace SessionDispatch

open Numeral

/-! ## The characters of a host -/

def hostAlphabet : List Char := "0123456789abcdef.:".toList

theorem mem_hostAlphabet_of_mem_toDigits {base : Nat} (h1 : 1 < base) (h16 : base ≤ 16) {n : Nat}
    {c : Char} (hc : c ∈ base.toDigits n) : c ∈ hostAlphabet := by
  have hsub : "0123456789abcdef".toList ⊆ hostAlphabet := by decide
  exact hsub (mem_of_mem_toDigits h1 h16 hc)

theorem Ipv4.mem_hostAlphabet {ip : Ipv4} {c : Char} (hc : c ∈ ip.chars) : c ∈ hostAlphabet := by
  have hdigits : ∀ n : Nat, c ∈ decimal n → c ∈ hostAlphabet := fun n =>
    mem_hostAlphabet_of_mem_toDigits (by decide) (by decide)
  have hdot : c = '.' → c ∈ hostAlphabet := fun h => h ▸ by decide
  simp only [chars, List.mem_append, List.mem_cons] at hc
  grind

theorem Ipv6.mem_hostAlphabet {ip : Ipv6} {c : Char} (hc : c ∈ ip.chars) : c ∈ hostAlphabet := by
  have hgroups : ∀ gs, c ∈ groupChars gs → c ∈ hostAlphabet := by
    intro gs hm
    have hpart : c ∈ partChars true gs := hm
    cases mem_partChars hpart with
    | inl h => exact h ▸ by decide
    | inr h =>
        obtain ⟨g, hg⟩ := h
        exact mem_hostAlphabet_of_mem_toDigits (by decide) (by decide) hg
  unfold chars at hc
  cases hm : ip.mapped? with
  | some v4 =>
      rw [hm] at hc
      have hsub : "::ffff:".toList ⊆ hostAlphabet := by decide
      exact (List.mem_append.mp hc).elim (fun h => hsub h) Ipv4.mem_hostAlphabet
  | none =>
      rw [hm] at hc
      dsimp only at hc
      split at hc
      · exact hgroups _ hc
      · have hsub : "::".toList ⊆ hostAlphabet := by decide
        simp only [List.mem_append] at hc
        exact hc.elim (fun h => h.elim (hgroups _) fun h => hsub h) (hgroups _)

theorem Host.mem_hostAlphabet {host : Host} {c : Char} (hc : c ∈ host.chars) :
    c ∈ hostAlphabet := by
  cases host with
  | v4 ip => exact Ipv4.mem_hostAlphabet hc
  | v6 ip => exact Ipv6.mem_hostAlphabet hc

/-! ## Groups that are written out -/

namespace Ipv6

open Scanner

variable {ip : Ipv6}

/-- An address with two zero groups in a row is not written with all its groups. -/
theorem not_written_joined {start : Nat} (hz : ZerosAt ip.groups start 2) :
    ¬ip.Written (joined ip.groups) := by
  intro h
  generalize htext : joined ip.groups = text at h
  rw [joined_eq] at htext
  cases h with
  | mapped hm ht =>
      have hdot : '.' ∉ groupChars ip.groups := not_mem_partChars true ip.groups
      rw [htext, Ipv4.written_iff.mp ht] at hdot
      exact hdot (List.mem_append_right _ (by simp [Ipv4.chars]))
  | full hm hn => exact hn start hz
  | shortened hm hl h2 =>
      -- The reader of groups goes through the one text to its end and stops in the other at the two
      -- colons.
      have hfull := part_groupChars (Nat.le_of_eq ip.length_groups)
      have hhead : ∀ n, (ip.groups.take n).length ≤ 8 := fun n =>
        Nat.le_trans (List.length_take_le' n ip.groups) (Nat.le_of_eq ip.length_groups)
      rw [htext, joined_eq, joined_eq, part_shortened (hhead _)] at hfull
      simp at hfull

theorem parse?_joined (ip : Ipv6) : Host.parse? (joined ip.groups) = some (.v6 ip) := by
  have hv4 : Ipv4.scanner (groupChars ip.groups) = none :=
    Ipv4.scanner_of_not_mem (not_mem_partChars true ip.groups)
  have hread : Host.scanner (groupChars ip.groups) = some (.v6 ip, []) :=
    (orElse_of_none (map_of_none hv4)).trans (map_of_some scanner_of_groupChars)
  rw [joined_eq, Host.parse?, whole, hread]

end Ipv6

namespace PeerKey

/-! ## Keys as texts -/

theorem text_ofAddress (a : SocketAddress) :
    (ofAddress a).text.toList = a.host.chars ++ '-' :: decimal a.port.toNat := by
  simp [ofAddress]

theorem not_mem_chars (host : Host) : '-' ∉ host.chars := fun h =>
  absurd (Host.mem_hostAlphabet h) (by decide)

theorem mem_of_mem_text {a : SocketAddress} {c : Char} (hc : c ∈ (ofAddress a).text.toList) :
    c = '-' ∨ c ∈ hostAlphabet := by
  rw [text_ofAddress, List.mem_append, List.mem_cons] at hc
  cases hc with
  | inl h => exact .inr (Host.mem_hostAlphabet h)
  | inr h => exact h.imp_right (mem_hostAlphabet_of_mem_toDigits (by decide) (by decide))

/-- A key has one hyphen, so it can be split in one way. -/
theorem text_eq_append_iff {a : SocketAddress} {text port : List Char} :
    (ofAddress a).text.toList = text ++ '-' :: port ↔ a.host.chars = text ∧
    decimal a.port.toNat = port := by
  rw [text_ofAddress,
    List.append_cons_inj_of_notMem (not_mem_chars a.host) (not_mem_decimal (by simp) _)]
  simp

theorem count_hyphen (a : SocketAddress) : (ofAddress a).text.toList.count '-' = 1 := by
  rw [text_ofAddress, List.count_append, List.count_cons_self,
    List.count_eq_zero.mpr (not_mem_chars a.host),
    List.count_eq_zero.mpr (not_mem_decimal (by simp) _)]

/-- A key of the address as it is read back is the key itself. -/
theorem ofAddress_ofHost (a : SocketAddress) : ofAddress (.ofHost a.host a.port) = ofAddress a := by
  simp [ofAddress_eq_iff]

theorem parse_ofAddress (a : SocketAddress) : parse (ofAddress a).text = .ok (ofAddress a) := by
  have hread : address? ⟨(ofAddress a).text⟩ = some (.ofHost a.host a.port) := address?_ofAddress a
  unfold parse
  rw [hread]
  dsimp only
  rw [if_pos (ofAddress_ofHost a)]

theorem parse_of_ne {s : String} (h : ∀ a, ofAddress a ≠ ⟨s⟩) : parse s = .error (.peerKey s) := by
  unfold parse
  cases address? ⟨s⟩ with
  | none => rfl
  | some a => exact if_neg (h a)

theorem text_of_parse {s : String} {k : PeerKey} (h : parse s = .ok k) : k.text = s := by
  unfold parse at h
  split at h
  · split at h
    · cases h
      rfl
    · cases h
  · cases h

/-- Ways in which a text misses the form of a key. -/
inductive Misspelt : List Char → Prop
  | leadingZero {host digits : List Char} : digits ≠ [] → Misspelt (host ++ '-' :: '0' :: digits)
  | plusSign {host port : List Char} : Misspelt (host ++ '-' :: '+' :: port)
  | largePort {host port : List Char} {n : Nat} : ofDigits? 10 port = some n → 0xffff < n →
      Misspelt (host ++ '-' :: port)
  | upperCase {s : List Char} {c : Char} : c ∈ s → c.isUpper → Misspelt s
  | scope {s : List Char} : '%' ∈ s → Misspelt s
  | hyphens {s : List Char} : s.count '-' ≠ 1 → Misspelt s
  | uncompressed {ip : Ipv6} {start : Nat} {port : List Char} : Ipv6.ZerosAt ip.groups start 2 →
      Misspelt (Ipv6.joined ip.groups ++ '-' :: port)
  | spelling {text port : List Char} {host : Host} : Host.parse? text = some host →
      ¬host.Written text →
      Misspelt (text ++ '-' :: port)

/-- A key has the text of its host, whatever else is read as this host. -/
theorem ne_of_spelling {a : SocketAddress} {text port : List Char} {host : Host}
    (hread : Host.parse? text = some host) (hw : ¬host.Written text) :
    (ofAddress a).text.toList ≠ text ++ '-' :: port := by
  intro hs
  have htext := (text_eq_append_iff.mp hs).1
  rw [← htext, Host.parse?_chars] at hread
  exact hw (Host.written_iff.mpr (by rw [← htext, Option.some.inj hread]))

theorem Misspelt.ne_text {s : List Char} (h : Misspelt s) (a : SocketAddress) :
    (ofAddress a).text.toList ≠ s := by
  intro hs
  cases h with
  | leadingZero hd =>
      have hport := (text_eq_append_iff.mp hs).2
      have hzero := decimal_of_head?_eq_zero (n := a.port.toNat) (by rw [hport]; rfl)
      rw [hport] at hzero
      exact hd (List.cons.inj hzero).2
  | plusSign =>
      have hport := (text_eq_append_iff.mp hs).2
      exact not_mem_decimal (c := '+') (by simp) a.port.toNat (hport ▸ List.mem_cons_self)
  | largePort hn hlt =>
      have hport := (text_eq_append_iff.mp hs).2
      have hread : ofDigits? 10 (decimal a.port.toNat) = some a.port.toNat :=
        ofDigits?_toDigits (by decide) (by decide) _
      rw [hport, hn] at hread
      have hle := a.port.toNat_lt
      have heq := Option.some.inj hread
      omega
  | upperCase hc hu =>
      have hlower : ('-' :: hostAlphabet).all (!·.isUpper) = true := by decide
      rw [← hs] at hc
      have hnot := List.all_eq_true.mp hlower _ (List.mem_cons.mpr (mem_of_mem_text hc))
      rw [hu] at hnot
      cases hnot
  | scope hc =>
      rw [← hs] at hc
      exact absurd (List.mem_cons.mpr (mem_of_mem_text hc)) (by decide)
  | hyphens hc => exact hc (hs ▸ count_hyphen a)
  | uncompressed hz => exact ne_of_spelling (Ipv6.parse?_joined _) (Ipv6.not_written_joined hz) hs
  | spelling hread hw => exact ne_of_spelling hread hw hs

/-! ## The two directions -/

/-- A key is read back as the address that it was made of, with neither flow label nor scope. So
keys are equal just for equal hosts and ports, and the keys of the two families differ. A key's text
is the canonical text of the host, a hyphen and the numeral of the port. -/
theorem keys_encode_addresses :
    (∀ ip port, (ofAddress (.v4 ip port)).address? = some (.v4 ip port)) ∧
      (∀ ip port flow scope, (ofAddress (.v6 ip port flow scope)).address? =
          some (.v6 ip port 0 0)) ∧
      (∀ a b, ofAddress a = ofAddress b ↔ a.host = b.host ∧ a.port = b.port) ∧
      (∀ ip ip' port port' flow scope,
          ofAddress (.v4 ip port) ≠ ofAddress (.v6 ip' port' flow scope)) ∧
      ∀ (a : SocketAddress) (text : List Char),
        a.host.Written text ↔ (ofAddress a).text.toList = text ++ '-' :: decimal a.port.toNat := by
  refine ⟨?_, ?_, ?_, ?_, ?_⟩
  · intro ip port
    exact address?_ofAddress (.v4 ip port)
  · intro ip port flow scope
    exact address?_ofAddress (.v6 ip port flow scope)
  · intro a b
    exact ofAddress_eq_iff
  · intro ip ip' port port' flow scope h
    have hhost := (ofAddress_eq_iff.mp h).1
    cases hhost
  · intro a text
    rw [Host.written_iff, text_eq_append_iff]
    simp [eq_comm]

/-- The longest run of zeros is left out, and of two such runs the first. -/
example :
    (ofAddress (.v6 ⟨[0x2001, 0, 0, 1, 0, 0, 0, 2], rfl⟩ 500 7 9)).text = "2001:0:0:1::2-500" := by
      cbv

/-- A text is read as a key just if some address has it as its key, and the key has this text. All
else is refused by an error that names the text, whatever the form of a key is missed by. -/
theorem parse_accepts_keys (s : String) :
    ((∃ k, parse s = .ok k) ↔ ∃ a, ofAddress a = ⟨s⟩) ∧
      (∀ k, parse s = .ok k → k.text = s) ∧
      ((∀ a, ofAddress a ≠ ⟨s⟩) → parse s = .error (.peerKey s)) ∧
      (Misspelt s.toList → parse s = .error (.peerKey s)) := by
  refine ⟨?_, ?_, ?_, ?_⟩
  · constructor
    · intro h
      obtain ⟨k, hk⟩ := h
      by_contra hn
      rw [parse_of_ne (not_exists.mp hn)] at hk
      cases hk
    · intro h
      obtain ⟨a, ha⟩ := h
      have hs : s = (ofAddress a).text := by rw [ha]
      exact ⟨ofAddress a, hs ▸ parse_ofAddress a⟩
  · intro k hk
    exact text_of_parse hk
  · exact parse_of_ne
  · intro h
    apply parse_of_ne
    intro a ha
    apply h.ne_text a
    rw [ha]

/-- A port with a leading zero is no key, though it can be read as a port. -/
example : parse "10.0.0.1-0500" = .error (.peerKey "10.0.0.1-0500") := by cbv

end PeerKey

end SessionDispatch
