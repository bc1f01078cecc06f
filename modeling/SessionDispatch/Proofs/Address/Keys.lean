import SessionDispatch.Address.PeerKey
import SessionDispatch.Proofs.Address.Hosts

/-!
# Which addresses share a key

A key is read back as the address that it was made of, less flow label and scope. So two addresses
have one key just if they have one host and one port.
-/

namespace SessionDispatch.PeerKey

open Numeral

theorem splitLast_append {front back : List Char} (hb : '-' ∉ back) :
    splitLast (front ++ '-' :: back) = some (front, back) := by
  have hall : ∀ c ∈ back.reverse, decide (c ≠ '-') = true := fun c hc => by
    simpa using ne_of_mem_of_not_mem (List.mem_reverse.mp hc) hb
  have hrev : (front ++ '-' :: back).reverse = back.reverse ++ '-' :: front.reverse := by simp
  simp only [splitLast, hrev, List.takeWhile_append_of_pos hall, List.dropWhile_append_of_pos hall]
  simp

/-- A key is read back as the address it was made of, less flow label and scope. -/
theorem address?_ofAddress (a : SocketAddress) :
    (ofAddress a).address? = some (.ofHost a.host a.port) := by
  have hsplit :
      splitLast (ofAddress a).text.toList = some (a.host.chars, decimal a.port.toNat) := by
    rw [ofAddress, String.toList_ofList]
    exact splitLast_append (not_mem_decimal (by simp) _)
  have hport : unsigned? 0xffff (decimal a.port.toNat) = some a.port.toNat :=
    unsigned?_decimal (Nat.le_of_lt_succ a.port.toNat_lt)
  simp only [address?, hsplit, Option.bind_eq_bind, Option.bind_some, Host.parse?_chars, hport]
  rw [Nat.toUInt16_eq, UInt16.ofNat_toNat]
  rfl

theorem ofAddress_eq_iff {a b : SocketAddress} :
    ofAddress a = ofAddress b ↔ a.host = b.host ∧ a.port = b.port := by
  constructor
  · intro hab
    have ha := address?_ofAddress a
    rw [hab, address?_ofAddress b] at ha
    have hread := Option.some.inj ha
    exact ⟨by simpa using (congrArg SocketAddress.host hread).symm,
      by simpa using (congrArg SocketAddress.port hread).symm⟩
  · rintro ⟨hhost, hport⟩
    rw [ofAddress, ofAddress, hhost, hport]

end SessionDispatch.PeerKey
