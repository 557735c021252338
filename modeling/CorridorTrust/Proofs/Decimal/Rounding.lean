import Mathlib
import CorridorTrust.Decimal.Binary64

namespace CorridorTrust.Decimal.Binary64

def IsRegular (x : Binary64) : Prop :=
  (x.significand < 2 ^ 52 ∧ x.exponent = leastExponent) ∨
    (2 ^ 52 ≤ x.significand ∧ x.significand < 2 ^ 53 ∧ leastExponent ≤ x.exponent ∧
      x.exponent ≤ greatestExponent)

def magnitude (x : Binary64) : ℚ := x.significand * 2 ^ x.exponent

lemma isRegular_zero (negative : Bool) : (zero negative).IsRegular := .inl ⟨Nat.two_pow_pos 52, rfl⟩

lemma IsRegular.neg {x : Binary64} (h : x.IsRegular) : x.neg.IsRegular := h

section Quotients

variable {num den : ℕ}

lemma shift_pos (hden : 0 < den) (e : ℤ) : 0 < (shift num den e).2 := by
  rw [shift]
  split_ifs
  · exact hden
  · exact Nat.mul_pos hden (Nat.pow_pos (by decide))

lemma shift_div (num den : ℕ) (e : ℤ) :
    ((shift num den e).1 : ℚ) / (shift num den e).2 = (num : ℚ) / den * 2 ^ e := by
  rw [shift]
  split_ifs with h
  · obtain ⟨k, rfl⟩ := Int.eq_ofNat_of_zero_le h
    simp only [Int.toNat_natCast, Nat.pow_eq, zpow_natCast]
    push_cast
    ring
  · obtain ⟨k, hk⟩ := Int.eq_ofNat_of_zero_le (a := -e) (by omega)
    obtain rfl : e = -(k : ℤ) := by omega
    simp only [neg_neg, Int.toNat_natCast, Nat.pow_eq, zpow_neg, zpow_natCast]
    push_cast
    rw [← div_div, div_eq_mul_inv ((num : ℚ) / den)]

lemma le_roundQuotient {n : ℕ} (hden : 0 < den) (h : (n : ℚ) ≤ num / den) :
    n ≤ roundQuotient num den := by
  have hden' : (0 : ℚ) < den := by exact_mod_cast hden
  have hmul : n * den ≤ num := by
    have := (le_div_iff₀ hden').1 h
    exact_mod_cast this
  have hquot : n ≤ num / den := (Nat.le_div_iff_mul_le hden).2 hmul
  unfold roundQuotient
  dsimp only
  split_ifs <;> omega

lemma roundQuotient_le {n : ℕ} (hden : 0 < den) (h : (num : ℚ) / den < n) :
    roundQuotient num den ≤ n := by
  have hden' : (0 : ℚ) < den := by exact_mod_cast hden
  have hmul : num < n * den := by
    have := (div_lt_iff₀ hden').1 h
    exact_mod_cast this
  have hquot : num / den < n := (Nat.div_lt_iff_lt_mul hden).2 hmul
  unfold roundQuotient
  dsimp only
  split_ifs <;> omega

lemma shift_le_iff (hden : 0 < den) (e : ℤ) :
    (shift num den (-e)).2 ≤ (shift num den (-e)).1 ↔ (2 : ℚ) ^ e ≤ num / den := by
  have hpos : (0 : ℚ) < (shift num den (-e)).2 := by exact_mod_cast shift_pos hden (-e)
  rw [← Nat.cast_le (α := ℚ), ← one_le_div₀ hpos, shift_div, zpow_neg, ← div_eq_mul_inv,
    one_le_div₀ (zpow_pos two_pos e)]

lemma binade_spec (hnum : 0 < num) (hden : 0 < den) :
    (2 : ℚ) ^ binade num den ≤ num / den ∧ (num : ℚ) / den < 2 ^ (binade num den + 1) := by
  have hden' : (0 : ℚ) < den := by exact_mod_cast hden
  have hnumLow : (2 : ℚ) ^ (Nat.log2 num : ℤ) ≤ num := by
    exact_mod_cast Nat.log2_self_le hnum.ne'
  have hnumHigh : (num : ℚ) < 2 ^ ((Nat.log2 num : ℤ) + 1) := by
    exact_mod_cast Nat.lt_log2_self
  have hdenLow : (2 : ℚ) ^ (Nat.log2 den : ℤ) ≤ den := by
    exact_mod_cast Nat.log2_self_le hden.ne'
  have hdenHigh : (den : ℚ) < 2 ^ ((Nat.log2 den : ℤ) + 1) := by
    exact_mod_cast Nat.lt_log2_self
  rw [binade]
  generalize (Nat.log2 num : ℤ) = l at *
  generalize (Nat.log2 den : ℤ) = k at *
  have hhigh : (num : ℚ) / den < 2 ^ (l - k + 1) := by
    rw [div_lt_iff₀ hden']
    calc (num : ℚ) < 2 ^ (l + 1) := hnumHigh
      _ = 2 ^ (l - k + 1) * 2 ^ k := by rw [← zpow_add₀ two_ne_zero]; congr 1; ring
      _ ≤ 2 ^ (l - k + 1) * den := by gcongr
  have hlow : (2 : ℚ) ^ (l - k - 1) ≤ num / den := by
    rw [le_div_iff₀ hden']
    calc (2 : ℚ) ^ (l - k - 1) * den ≤ 2 ^ (l - k - 1) * 2 ^ (k + 1) := by gcongr
      _ = 2 ^ l := by rw [← zpow_add₀ two_ne_zero]; congr 1; ring
      _ ≤ num := hnumLow
  dsimp only
  split_ifs with h
  · exact ⟨(shift_le_iff hden _).1 h, hhigh⟩
  · refine ⟨hlow, ?_⟩
    rw [sub_add_cancel]
    exact not_le.1 (mt (shift_le_iff hden _).2 h)

end Quotients

lemma shift_bounds {num den : ℕ} (hnum : 0 < num) (hden : 0 < den) {q : ℤ}
    (hq : q = max (binade num den - 52) leastExponent) :
    roundQuotient (shift num den (-q)).1 (shift num den (-q)).2 ≤ 2 ^ 53 ∧
      (q ≠ leastExponent →
        2 ^ 52 ≤ roundQuotient (shift num den (-q)).1 (shift num den (-q)).2) := by
  obtain ⟨hlow, hhigh⟩ := binade_spec hnum hden
  have hpos := @shift_pos num den hden (-q)
  have hshift := shift_div num den (-q)
  constructor
  · refine roundQuotient_le hpos ?_
    rw [hshift]
    calc (num : ℚ) / den * 2 ^ (-q) < 2 ^ (binade num den + 1) * 2 ^ (-q) := by gcongr
      _ = 2 ^ (binade num den + 1 - q) := by rw [← zpow_add₀ two_ne_zero]; rfl
      _ ≤ 2 ^ (53 : ℤ) := zpow_le_zpow_right₀ one_le_two (by omega)
      _ = ((2 ^ 53 : ℕ) : ℚ) := by norm_cast
  · intro hne
    refine le_roundQuotient hpos ?_
    rw [hshift]
    calc ((2 ^ 52 : ℕ) : ℚ) = 2 ^ (52 : ℤ) := by norm_cast
      _ = 2 ^ (binade num den - q) := by congr 1; omega
      _ = 2 ^ binade num den * 2 ^ (-q) := by rw [← zpow_add₀ two_ne_zero]; rfl
      _ ≤ num / den * 2 ^ (-q) := by gcongr

theorem isRegular_of_ofRatio {negative : Bool} {num den : ℕ} {x : Binary64} (hden : 0 < den)
    (h : ofRatio negative num den = some x) : x.IsRegular := by
  rw [ofRatio] at h
  split_ifs at h with hnum
  · obtain rfl : _ = x := by simpa using h
    exact isRegular_zero negative
  obtain ⟨hle, hge⟩ := shift_bounds (Nat.pos_of_ne_zero hnum) hden rfl
  have hleast : leastExponent ≤ max (binade num den - 52) leastExponent := le_max_right _ _
  generalize max (binade num den - 52) leastExponent = q at h hle hge hleast
  dsimp only at h
  generalize roundQuotient (shift num den (-q)).1 (shift num den (-q)).2 = m at h hle hge
  by_cases hm : m = Nat.pow 2 53
  · rw [if_pos hm] at h
    split_ifs at h with hgreatest
    have hq : leastExponent ≤ q + 1 := by omega
    obtain rfl : _ = x := by simpa using h
    exact .inr ⟨le_rfl, Nat.pow_lt_pow_right Nat.one_lt_two (Nat.lt_succ_self 52), hq, hgreatest⟩
  · rw [if_neg hm] at h
    split_ifs at h with hgreatest
    have hlt : m < 2 ^ 53 := lt_of_le_of_ne hle hm
    obtain rfl : _ = x := by simpa using h
    by_cases hq : q = leastExponent
    · rcases Nat.lt_or_ge m (2 ^ 52) with hlow | hhigh
      · exact .inl ⟨hlow, hq⟩
      · exact .inr ⟨hhigh, hlt, hleast, hgreatest⟩
    · exact .inr ⟨hge hq, hlt, hleast, hgreatest⟩

lemma significand_pos_of_ofRatio {negative : Bool} {num den : ℕ} {x : Binary64} (hden : 0 < den)
    (hle : den ≤ num) (h : ofRatio negative num den = some x) : 0 < x.significand := by
  have hnum : 0 < num := hden.trans_le hle
  have hone : (1 : ℚ) ≤ num / den := by
    rw [one_le_div₀ (by exact_mod_cast hden)]
    exact_mod_cast hle
  obtain ⟨-, hhigh⟩ := binade_spec hnum hden
  have hbinade : -1 < binade num den := by
    by_contra hn
    have hpow : (2 : ℚ) ^ (binade num den + 1) ≤ 2 ^ (0 : ℤ) :=
      zpow_le_zpow_right₀ one_le_two (by omega)
    rw [zpow_zero] at hpow
    exact absurd (hone.trans_lt hhigh) (not_lt.2 hpow)
  have hq : max (binade num den - 52) leastExponent ≠ leastExponent := by
    rw [leastExponent]
    omega
  have hge := (shift_bounds hnum hden rfl).2 hq
  rw [ofRatio] at h
  rw [if_neg hnum.ne'] at h
  dsimp only at h
  generalize roundQuotient _ _ = m at h hge
  split_ifs at h <;> obtain rfl : _ = x := by simpa using h
  · exact Nat.two_pow_pos 52
  · exact (Nat.two_pow_pos 52).trans_le hge

lemma ratio_pos (x : Binary64) : 0 < x.ratio.2 := shift_pos Nat.one_pos _

lemma ratio_fst_pos {x : Binary64} (h : 0 < x.significand) : 0 < x.ratio.1 := by
  rw [ratio, shift]
  split_ifs
  · exact Nat.mul_pos h (Nat.pow_pos (by decide))
  · exact h

lemma isRegular_of_ofNat {n : ℕ} {x : Binary64} (h : ofNat n = some x) : x.IsRegular :=
  isRegular_of_ofRatio Nat.one_pos h

lemma isRegular_of_mul {x y z : Binary64} (h : x.mul y = some z) : z.IsRegular :=
  isRegular_of_ofRatio (Nat.mul_pos x.ratio_pos y.ratio_pos) h

lemma isRegular_of_div {x y z : Binary64} {k : ℕ} (hy : powerOfTen k = some y)
    (h : x.div y = some z) : z.IsRegular := by
  have hpos : 0 < y.significand :=
    significand_pos_of_ofRatio Nat.one_pos (Nat.one_le_pow _ _ (by decide)) hy
  exact isRegular_of_ofRatio (Nat.mul_pos x.ratio_pos (ratio_fst_pos hpos)) h

theorem isRegular_of_ofDecimal {n : ℕ} {e : ℤ} {x : Binary64} (h : ofDecimal n e = some x) :
    x.IsRegular := by
  obtain ⟨y, hy, h⟩ := Option.bind_eq_some_iff.1 h
  split_ifs at h
  · obtain rfl : y = x := by simpa using h
    exact isRegular_of_ofNat hy
  · obtain ⟨z, -, h⟩ := Option.bind_eq_some_iff.1 h
    exact isRegular_of_mul h
  · obtain ⟨z, hz, h⟩ := Option.bind_eq_some_iff.1 h
    exact isRegular_of_div hz h
  · obtain ⟨z, -, h⟩ := Option.bind_eq_some_iff.1 h
    obtain ⟨w, -, h⟩ := Option.bind_eq_some_iff.1 h
    obtain ⟨v, hv, h⟩ := Option.bind_eq_some_iff.1 h
    exact isRegular_of_div hv h
  · obtain ⟨z, -, h⟩ := Option.bind_eq_some_iff.1 h
    obtain ⟨w, -, h⟩ := Option.bind_eq_some_iff.1 h
    obtain rfl : _ = x := by simpa using h
    exact isRegular_zero false

end CorridorTrust.Decimal.Binary64
