import Mathlib
import CorridorTrust.Codec.Hex

namespace CorridorTrust.Hex

lemma digitChar_inj : ∀ m < 16, ∀ n < 16, Nat.digitChar m = Nat.digitChar n → m = n := by decide

lemma encodeByte_append_inj {a b : UInt8} {r s : List Char}
    (h : encodeByte a ++ r = encodeByte b ++ s) : a = b ∧ r = s := by
  have ha := a.toNat_lt
  have hb := b.toNat_lt
  simp only [encodeByte, List.cons_append, List.nil_append, List.cons.injEq] at h
  obtain ⟨hhigh, hlow, hrest⟩ := h
  have hdiv := digitChar_inj _ (by omega) _ (by omega) hhigh
  have hmod := digitChar_inj _ (by omega) _ (by omega) hlow
  exact ⟨UInt8.toNat_inj.1 (by omega), hrest⟩

theorem encode_injective : Function.Injective encode := by
  intro as bs h
  have hchars : as.flatMap encodeByte = bs.flatMap encodeByte := String.ofList_injective h
  clear h
  induction as generalizing bs with
  | nil =>
    cases bs with
    | nil => rfl
    | cons b bs => simp [encodeByte] at hchars
  | cons a as ih =>
    cases bs with
    | nil => simp [encodeByte] at hchars
    | cons b bs =>
      rw [List.flatMap_cons, List.flatMap_cons] at hchars
      obtain ⟨rfl, hrest⟩ := encodeByte_append_inj hchars
      rw [ih hrest]

end CorridorTrust.Hex
