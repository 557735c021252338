import Mathlib
import CorridorTrust.Decimal.Shortest

namespace CorridorTrust.Decimal

lemma digits_eq_reverse {n : ℕ} (h : n ≠ 0) : digits n = (Nat.digits 10 n).reverse := by
  fun_induction digits n with
  | case1 n hn => rw [Nat.digits_of_lt 10 n h hn, List.reverse_singleton]
  | case2 n hn ih =>
    rw [ih (by omega), Nat.digits_def' (by decide) (Nat.pos_of_ne_zero h), List.reverse_cons]

lemma ofDigits_eq (ds : List ℕ) : ofDigits ds = Nat.ofDigits 10 ds.reverse := by
  rw [Nat.ofDigits_eq_foldr, List.foldr_reverse, ofDigits]
  congr 1
  funext n d
  simp only [Nat.cast_id]
  ring

lemma ofDigits_digits (n : ℕ) : ofDigits (digits n) = n := by
  by_cases h : n = 0
  · subst h
    simp [digits, ofDigits]
  · rw [ofDigits_eq, digits_eq_reverse h, List.reverse_reverse, Nat.ofDigits_digits]

lemma digits_injective : Function.Injective digits := Function.LeftInverse.injective ofDigits_digits

lemma lt_ten_of_mem_digits {n d : ℕ} (h : d ∈ digits n) : d < 10 := by
  by_cases hn : n = 0
  · subst hn
    obtain rfl : d = 0 := by simpa [digits] using h
    decide
  · rw [digits_eq_reverse hn, List.mem_reverse] at h
    exact Nat.digits_lt_base (by decide) h

lemma digits_ne_nil (n : ℕ) : digits n ≠ [] := by
  by_cases hn : n = 0
  · subst hn
    simp [digits]
  · rw [digits_eq_reverse hn, Ne, List.reverse_eq_nil_iff]
    exact Nat.digits_ne_nil_iff_ne_zero.2 hn

lemma head?_digits {n : ℕ} (h : n ≠ 0) : (digits n).head? ≠ some 0 := by
  rw [digits_eq_reverse h, List.head?_reverse]
  intro hlast
  have hne : Nat.digits 10 n ≠ [] := Nat.digits_ne_nil_iff_ne_zero.2 h
  rw [List.getLast?_eq_some_getLast hne, Option.some.injEq] at hlast
  exact Nat.getLast_digit_ne_zero 10 h hlast

lemma length_digits_pos (n : ℕ) : 0 < (digits n).length := List.length_pos_iff.2 (digits_ne_nil n)

lemma lt_pow_length_digits (n : ℕ) : n < 10 ^ (digits n).length := by
  by_cases hn : n = 0
  · subst hn
    simp
  · rw [digits_eq_reverse hn, List.length_reverse]
    exact Nat.lt_base_pow_length_digits (by decide)

lemma pow_length_digits_le {n : ℕ} (h : n ≠ 0) : 10 ^ ((digits n).length - 1) ≤ n := by
  have hle := Nat.base_pow_length_digits_le 10 n (by decide) h
  have hlength : (digits n).length = (Nat.digits 10 n).length := by
    rw [digits_eq_reverse h, List.length_reverse]
  have hpos := length_digits_pos n
  rw [← hlength, ← Nat.succ_pred_eq_of_pos hpos, pow_succ] at hle
  change 10 ^ ((digits n).length - 1) * 10 ≤ 10 * n at hle
  omega

lemma ofDigits_append (xs ys : List ℕ) :
    ofDigits (xs ++ ys) = ofDigits xs * 10 ^ ys.length + ofDigits ys := by
  rw [ofDigits_eq, ofDigits_eq, ofDigits_eq, List.reverse_append, Nat.ofDigits_append,
    List.length_reverse]
  ring

lemma ofDigits_replicate_zero (k : ℕ) : ofDigits (List.replicate k 0) = 0 := by
  rw [ofDigits_eq, List.reverse_replicate, Nat.ofDigits_replicate_zero]

lemma exists_eq_append_zeros (ds : List ℕ) :
    ∃ k, ds = (ds.reverse.dropWhile (· == 0)).reverse ++ List.replicate k 0 := by
  have hzeros : ds.reverse.takeWhile (· == 0) =
      List.replicate (ds.reverse.takeWhile (· == 0)).length 0 :=
    List.eq_replicate_iff.2 ⟨rfl, fun d hd => by simpa using List.mem_takeWhile_imp hd⟩
  have hsplit : ds.reverse.takeWhile (· == 0) ++ ds.reverse.dropWhile (· == 0) = ds.reverse :=
    List.takeWhile_append_dropWhile
  refine ⟨(ds.reverse.takeWhile (· == 0)).length, ?_⟩
  conv_lhs => rw [← List.reverse_reverse ds, ← hsplit, List.reverse_append, hzeros]
  rw [List.reverse_replicate]

end CorridorTrust.Decimal
