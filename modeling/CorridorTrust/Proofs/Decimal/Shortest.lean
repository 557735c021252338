import CorridorTrust.Proofs.Decimal.Digits
import CorridorTrust.Proofs.Decimal.Rounding

/-!
The shortest digits of a number lie among the reals that round to it. The search for them ends, since
seventeen digits are enough, and no real rounds to two numbers, so that the digits tell them apart.
-/

namespace CorridorTrust.Decimal.Binary64

def isNarrow (x : Binary64) : Bool := x.significand == Nat.pow 2 52 && leastExponent < x.exponent

def lower (x : Binary64) : ℚ := (x.significand - if x.isNarrow then 1 / 4 else 1 / 2) * 2 ^ x.exponent

def upper (x : Binary64) : ℚ := (x.significand + 1 / 2) * 2 ^ x.exponent

/-- The real rounds to the number, a tie to the even significand. -/
def Covers (x : Binary64) (r : ℚ) : Prop :=
  if x.significand % 2 = 0 then x.lower ≤ r ∧ r ≤ x.upper else x.lower < r ∧ r < x.upper

variable {x y : Binary64} {r : ℚ}

lemma Covers.bounds (h : x.Covers r) : x.lower ≤ r ∧ r ≤ x.upper := by
  rw [Covers] at h
  split_ifs at h
  · exact h
  · exact ⟨h.1.le, h.2.le⟩

lemma covers_of_lt (h₁ : x.lower < r) (h₂ : r < x.upper) : x.Covers r := by
  rw [Covers]
  split_ifs
  · exact ⟨h₁.le, h₂.le⟩
  · exact ⟨h₁, h₂⟩

section Disjoint

lemma le_lower (x : Binary64) : (x.significand - 1 / 2) * 2 ^ x.exponent ≤ x.lower := by
  rw [lower]
  gcongr
  split_ifs <;> norm_num

lemma upper_le_lower_of_significand (he : x.exponent = y.exponent)
    (h : x.significand < y.significand) : x.upper ≤ y.lower ∧
      (x.upper = y.lower → x.significand % 2 = 1 ∨ y.significand % 2 = 1) := by
  have hle : (x.significand : ℚ) + 1 ≤ y.significand := by exact_mod_cast h
  have hpow : (0 : ℚ) < 2 ^ y.exponent := zpow_pos two_pos _
  have hlower := le_lower y
  rw [upper]
  rw [he]
  constructor
  · refine le_trans ?_ hlower
    gcongr
    linarith
  · intro heq
    rw [← heq] at hlower
    have hcast := le_of_mul_le_mul_right hlower hpow
    have hnext : (y.significand : ℚ) ≤ x.significand + 1 := by linarith
    have hnext' : y.significand ≤ x.significand + 1 := by exact_mod_cast hnext
    omega

lemma le_lower_of_exponent (hy : y.IsRegular) (h : leastExponent < y.exponent) :
    (2 ^ 52 - 1 / 4) * 2 ^ y.exponent ≤ y.lower := by
  obtain ⟨-, he⟩ | ⟨hm, -, -, -⟩ := hy
  · omega
  rw [lower]
  refine mul_le_mul_of_nonneg_right ?_ (zpow_pos two_pos _).le
  split_ifs with hnarrow
  · have hcast : (2 : ℚ) ^ 52 ≤ y.significand := by exact_mod_cast hm
    linarith
  · have hne : y.significand ≠ 2 ^ 52 := fun he => hnarrow (by simp [isNarrow, he, h])
    have hlt : 2 ^ 52 + 1 ≤ y.significand := lt_of_le_of_ne hm hne.symm
    have hcast : (2 : ℚ) ^ 52 + 1 ≤ y.significand := by exact_mod_cast hlt
    linarith

lemma IsRegular.significand_lt (h : x.IsRegular) : x.significand < 2 ^ 53 := by
  obtain ⟨hm, -⟩ | ⟨-, hm, -, -⟩ := h
  · exact hm.trans (Nat.pow_lt_pow_right Nat.one_lt_two (Nat.lt_succ_self 52))
  · exact hm

lemma IsRegular.le_exponent (h : x.IsRegular) : leastExponent ≤ x.exponent := by
  obtain ⟨-, he⟩ | ⟨-, -, he, -⟩ := h
  · exact he.ge
  · exact he

lemma upper_le_lower_of_exponent (hx : x.IsRegular) (hy : y.IsRegular)
    (h : x.exponent < y.exponent) : x.upper ≤ y.lower ∧
      (x.upper = y.lower → x.significand % 2 = 1 ∨ y.significand % 2 = 1) := by
  have hlower := le_lower_of_exponent hy (hx.le_exponent.trans_lt h)
  have hpow : (0 : ℚ) < 2 ^ x.exponent := zpow_pos two_pos _
  have hdouble : (2 : ℚ) * 2 ^ x.exponent ≤ 2 ^ y.exponent := by
    rw [← zpow_one_add₀ two_ne_zero]
    exact zpow_le_zpow_right₀ one_le_two (by omega)
  -- the least number of a binade reaches down by a quarter only, which is half a step below it
  have hstep : (2 ^ 53 - 1 / 2) * 2 ^ x.exponent ≤ y.lower :=
    calc ((2 : ℚ) ^ 53 - 1 / 2) * 2 ^ x.exponent = (2 ^ 52 - 1 / 4) * (2 * 2 ^ x.exponent) := by ring
      _ ≤ (2 ^ 52 - 1 / 4) * 2 ^ y.exponent := by gcongr
      _ ≤ y.lower := hlower
  have hlt : x.significand + 1 ≤ 2 ^ 53 := hx.significand_lt
  have hcast : (x.significand : ℚ) + 1 ≤ 2 ^ 53 := by exact_mod_cast hlt
  constructor
  · refine le_trans ?_ hstep
    rw [upper]
    gcongr
    linarith
  · intro heq
    rw [← heq] at hstep
    have hge : (2 : ℚ) ^ 53 - 1 / 2 ≤ x.significand + 1 / 2 := le_of_mul_le_mul_right hstep hpow
    have hlast : (2 : ℚ) ^ 53 ≤ x.significand + 1 := by linarith
    have hlast' : 2 ^ 53 ≤ x.significand + 1 := by exact_mod_cast hlast
    omega

lemma not_covers_of_le (h : x.upper ≤ y.lower ∧
    (x.upper = y.lower → x.significand % 2 = 1 ∨ y.significand % 2 = 1)) (hx : x.Covers r) :
    ¬y.Covers r := by
  intro hy
  have hr : x.upper = r := le_antisymm (h.1.trans hy.bounds.1) hx.bounds.2
  have hr' : r = y.lower := le_antisymm (hr ▸ h.1) hy.bounds.1
  rw [Covers] at hx hy
  rcases h.2 (hr.trans hr') with hodd | hodd
  · rw [if_neg (by omega)] at hx
    exact absurd hr hx.2.ne'
  · rw [if_neg (by omega)] at hy
    exact absurd hr' hy.1.ne'

theorem eq_of_covers (hx : x.IsRegular) (hy : y.IsRegular) (hxr : x.Covers r) (hyr : y.Covers r) :
    x.significand = y.significand ∧ x.exponent = y.exponent := by
  rcases lt_trichotomy x.exponent y.exponent with he | he | he
  · exact absurd hyr (not_covers_of_le (upper_le_lower_of_exponent hx hy he) hxr)
  · rcases lt_trichotomy x.significand y.significand with hm | hm | hm
    · exact absurd hyr (not_covers_of_le (upper_le_lower_of_significand he hm) hxr)
    · exact ⟨hm, he⟩
    · exact absurd hxr (not_covers_of_le (upper_le_lower_of_significand he.symm hm) hyr)
  · exact absurd hxr (not_covers_of_le (upper_le_lower_of_exponent hy hx he) hyr)

end Disjoint

section Search

lemma tenPower (place : ℤ) :
    (10 : ℚ) ^ place = (Nat.pow 10 place.toNat : ℕ) / (Nat.pow 10 (-place).toNat : ℕ) := by
  rcases Int.le_total 0 place with h | h
  · obtain ⟨k, rfl⟩ := Int.eq_ofNat_of_zero_le h
    have hneg : (-(k : ℤ)).toNat = 0 := by omega
    simp [hneg]
  · obtain ⟨k, hk⟩ := Int.eq_ofNat_of_zero_le (a := -place) (by omega)
    obtain rfl : place = -(k : ℤ) := by omega
    have hneg : (-(k : ℤ)).toNat = 0 := by omega
    simp [hneg]

lemma interval_denominator_pos (x : Binary64) : 0 < x.interval.denominator :=
  shift_pos (by decide) x.exponent

lemma interval_high (x : Binary64) : (x.interval.high : ℚ) / x.interval.denominator = x.upper := by
  have h := shift_div 1 4 x.exponent
  change (((4 * x.significand + 2) * (shift 1 4 x.exponent).1 : ℕ) : ℚ) / (shift 1 4 x.exponent).2 = _
  push_cast at h ⊢
  rw [mul_div_assoc, h, upper]
  ring

lemma interval_value (x : Binary64) :
    (x.interval.value : ℚ) / x.interval.denominator = x.magnitude := by
  have h := shift_div 1 4 x.exponent
  change ((4 * x.significand * (shift 1 4 x.exponent).1 : ℕ) : ℚ) / (shift 1 4 x.exponent).2 = _
  push_cast at h ⊢
  rw [mul_div_assoc, h, magnitude]
  ring

lemma interval_low (hx : 0 < x.significand) :
    (x.interval.low : ℚ) / x.interval.denominator = x.lower := by
  have h := shift_div 1 4 x.exponent
  change (((4 * x.significand - if x.isNarrow then 1 else 2) * (shift 1 4 x.exponent).1 : ℕ) : ℚ) /
    (shift 1 4 x.exponent).2 = _
  rw [lower]
  push_cast at h ⊢
  rw [mul_div_assoc, h]
  split_ifs
  · rw [Nat.cast_sub (by omega)]
    push_cast
    ring
  · rw [Nat.cast_sub (by omega)]
    push_cast
    ring

lemma scaled_le_iff {a n p s d : ℕ} (hs : 0 < s) (hd : 0 < d) :
    a * s ≤ n * p * d ↔ (a : ℚ) / d ≤ n * ((p : ℚ) / s) := by
  rw [mul_div_assoc', div_le_div_iff₀ (by exact_mod_cast hd) (by exact_mod_cast hs)]
  exact_mod_cast Iff.rfl

lemma le_scaled_iff {a n p s d : ℕ} (hs : 0 < s) (hd : 0 < d) :
    n * p * d ≤ a * s ↔ n * ((p : ℚ) / s) ≤ (a : ℚ) / d := by
  rw [mul_div_assoc', div_le_div_iff₀ (by exact_mod_cast hs) (by exact_mod_cast hd)]
  exact_mod_cast Iff.rfl

lemma holds_iff (hx : 0 < x.significand) (n : ℕ) (place : ℤ) :
    x.interval.holds n place = true ↔ x.Covers (n * 10 ^ place) := by
  have hden := x.interval_denominator_pos
  have hs : 0 < Nat.pow 10 (-place).toNat := Nat.pow_pos (by decide)
  have hclosed : x.interval.closed = (x.significand % 2 == 0) := rfl
  unfold Interval.holds Covers
  dsimp only
  rw [tenPower, ← interval_low hx, ← interval_high, hclosed]
  by_cases heven : x.significand % 2 = 0
  · rw [if_pos heven, if_pos (by simpa using heven), ← scaled_le_iff hs hden,
      ← le_scaled_iff hs hden, Bool.and_eq_true, decide_eq_true_eq, decide_eq_true_eq]
  · rw [if_neg heven, if_neg (by simpa using heven), Bool.and_eq_true, decide_eq_true_eq,
      decide_eq_true_eq]
    exact and_congr (lt_iff_lt_of_le_iff_le (le_scaled_iff hs hden))
      (lt_iff_lt_of_le_iff_le (scaled_le_iff hs hden))

lemma le_ceil_mul {d v : ℕ} (hv : 0 < v) : d ≤ (d + v - 1) / v * v := by
  have hdiv := Nat.div_add_mod (d + v - 1) v
  have hmod := Nat.mod_lt (d + v - 1) hv
  rw [Nat.mul_comm] at hdiv
  omega

lemma tenPower_neg_le {d v inverse k : ℕ} (hd : 0 < d) (h : d ≤ inverse * v)
    (hk : inverse ≤ 10 ^ k) : (10 : ℚ) ^ (-(k : ℤ)) ≤ (v : ℚ) / d := by
  have hd' : (0 : ℚ) < d := by exact_mod_cast hd
  have hcast : (d : ℚ) ≤ 10 ^ k * v := by exact_mod_cast h.trans (Nat.mul_le_mul_right _ hk)
  rw [zpow_neg, zpow_natCast, inv_le_iff_one_le_mul₀ (by positivity), div_mul_eq_mul_div,
    one_le_div₀ hd', mul_comm]
  exact hcast

lemma tenPower_magnitude_le {i : Interval} (hden : 0 < i.denominator) (hvalue : 0 < i.value) :
    (10 : ℚ) ^ i.magnitude ≤ (i.value : ℚ) / i.denominator := by
  have hden' : (0 : ℚ) < i.denominator := by exact_mod_cast hden
  have hvalue' : (0 : ℚ) < i.value := by exact_mod_cast hvalue
  rw [Interval.magnitude]
  dsimp only
  split_ifs with hwhole hpower
  · have hle := pow_length_digits_le hwhole.ne'
    have hlength := length_digits_pos (i.value / i.denominator)
    have hexp : ((digits (i.value / i.denominator)).length : ℤ) - 1 =
        (((digits (i.value / i.denominator)).length - 1 : ℕ) : ℤ) := by omega
    rw [hexp, zpow_natCast]
    calc ((10 : ℚ) ^ ((digits (i.value / i.denominator)).length - 1))
        ≤ ((i.value / i.denominator : ℕ) : ℚ) := by exact_mod_cast hle
      _ ≤ (i.value : ℚ) / i.denominator := Nat.cast_div_le
  · have hlength := length_digits_pos ((i.denominator + i.value - 1) / i.value)
    have hexp : -(((digits ((i.denominator + i.value - 1) / i.value)).length : ℤ) - 1) =
        -(((digits ((i.denominator + i.value - 1) / i.value)).length - 1 : ℕ) : ℤ) := by omega
    rw [hexp]
    exact tenPower_neg_le hden (le_ceil_mul hvalue) hpower.le
  · exact tenPower_neg_le hden (le_ceil_mul hvalue) (lt_pow_length_digits _).le

lemma abs_sub_div_le {n a d : ℕ} (hd : 0 < d) (h₁ : 2 * (n * d) ≤ 2 * a + d)
    (h₂ : 2 * a ≤ 2 * (n * d) + d) : |(n : ℚ) - a / d| ≤ 1 / 2 := by
  have hd' : (0 : ℚ) < d := by exact_mod_cast hd
  have h₁' : 2 * ((n : ℚ) * d) ≤ 2 * a + d := by exact_mod_cast h₁
  have h₂' : (2 : ℚ) * a ≤ 2 * (n * d) + d := by exact_mod_cast h₂
  have hcancel : (a : ℚ) / d * d = a := div_mul_cancel₀ _ hd'.ne'
  rw [abs_le]
  constructor
  · refine le_of_mul_le_mul_right ?_ hd'
    rw [sub_mul, hcancel]
    linarith
  · refine le_of_mul_le_mul_right ?_ hd'
    rw [sub_mul, hcancel]
    linarith

lemma exists_neighbours_near {i : Interval} {place : ℤ}
    (hpos : 0 < i.denominator * Nat.pow 10 place.toNat) :
    ∃ n rest, i.neighbours place = n :: rest ∧
      |(n : ℚ) - (i.value * Nat.pow 10 (-place).toNat : ℕ) /
        (i.denominator * Nat.pow 10 place.toNat : ℕ)| ≤ 1 / 2 := by
  unfold Interval.neighbours
  dsimp only
  generalize i.value * Nat.pow 10 (-place).toNat = a
  generalize i.denominator * Nat.pow 10 place.toNat = d at hpos
  have hdiv := Nat.div_add_mod a d
  have hmod := Nat.mod_lt a hpos
  rw [Nat.mul_comm] at hdiv
  have hsucc : (a / d + 1) * d = a / d * d + d := by ring
  split_ifs
  all_goals refine ⟨_, _, rfl, abs_sub_div_le hpos ?_ ?_⟩ <;> omega

lemma value_div_eq {i : Interval} (hden : 0 < i.denominator) (place : ℤ) :
    (i.value : ℚ) / i.denominator = ((i.value * Nat.pow 10 (-place).toNat : ℕ) : ℚ) /
      (i.denominator * Nat.pow 10 place.toNat : ℕ) * 10 ^ place := by
  have hP : ((Nat.pow 10 place.toNat : ℕ) : ℚ) ≠ 0 := by simp
  have hS : ((Nat.pow 10 (-place).toNat : ℕ) : ℚ) ≠ 0 := by simp
  have hd : (i.denominator : ℚ) ≠ 0 := by exact_mod_cast hden.ne'
  rw [tenPower]
  push_cast at *
  field_simp

lemma exists_neighbours_eq {i : Interval} (hden : 0 < i.denominator) (place : ℤ) :
    ∃ n rest, i.neighbours place = n :: rest ∧
      |(n : ℚ) * 10 ^ place - i.value / i.denominator| ≤ 10 ^ place / 2 := by
  have hpos : 0 < i.denominator * Nat.pow 10 place.toNat :=
    Nat.mul_pos hden (Nat.pow_pos (by decide))
  have hg : (0 : ℚ) < 10 ^ place := zpow_pos (by norm_num) _
  obtain ⟨n, rest, hn, hle⟩ := exists_neighbours_near hpos
  refine ⟨n, rest, hn, ?_⟩
  rw [value_div_eq hden place, ← sub_mul, abs_mul, abs_of_pos hg]
  calc |(n : ℚ) - (i.value * Nat.pow 10 (-place).toNat : ℕ) /
        (i.denominator * Nat.pow 10 place.toNat : ℕ)| * 10 ^ place ≤ 1 / 2 * 10 ^ place := by gcongr
    _ = 10 ^ place / 2 := by ring

lemma covers_of_near {n : ℕ} {place : ℤ} (h : x.IsRegular)
    (hplace : (10 : ℚ) ^ place * 10 ^ 16 ≤ x.magnitude)
    (hnear : |(n : ℚ) * 10 ^ place - x.magnitude| ≤ 10 ^ place / 2) :
    x.Covers (n * 10 ^ place) := by
  have hpow : (0 : ℚ) < 2 ^ x.exponent := zpow_pos two_pos _
  have hm : (x.significand : ℚ) < 2 ^ 53 := by exact_mod_cast h.significand_lt
  have hmul : (x.significand : ℚ) * 2 ^ x.exponent < 2 ^ 53 * 2 ^ x.exponent := by gcongr
  obtain ⟨hlow, hhigh⟩ := abs_le.1 hnear
  rw [magnitude] at hplace hlow hhigh
  refine covers_of_lt ?_ ?_
  · rw [lower]
    split_ifs with hnarrow
    · have hsignificand : (x.significand : ℚ) = 2 ^ 52 := by
        simp only [isNarrow, Bool.and_eq_true, beq_iff_eq] at hnarrow
        rw [hnarrow.1]
        norm_num
      rw [hsignificand] at hplace hlow ⊢
      linarith
    · linarith
  · rw [upper]
    linarith

lemma holds_search {i : Interval} {last : ℕ}
    (hfound : ((i.neighbours (i.magnitude + 1 - last)).find?
      (i.holds · (i.magnitude + 1 - last))).isSome) (fuel count : ℕ) (hcount : count ≤ last)
    (hfuel : last < count + fuel) :
    i.holds (i.search count fuel).1 (i.search count fuel).2 = true := by
  -- the count grows towards `last`, whose grid has a point, before the fuel is spent
  induction fuel generalizing count with
  | zero => omega
  | succ fuel ih =>
    unfold Interval.search
    dsimp only
    split
    next n hn =>
      have hholds := List.find?_some hn
      exact hholds
    next hnone =>
      have hne : count ≠ last := by
        rintro rfl
        rw [hnone] at hfound
        cases hfound
      exact ih (count + 1) (by omega) (by omega)

lemma interval_value_pos (hx : 0 < x.significand) : 0 < x.interval.value := by
  have hunit : 0 < (shift 1 4 x.exponent).1 := by
    rw [shift]
    split_ifs
    · exact Nat.mul_pos Nat.one_pos (Nat.pow_pos (by decide))
    · exact Nat.one_pos
  exact Nat.mul_pos (by omega) hunit

lemma covers_search (h : x.IsRegular) (hx : 0 < x.significand) :
    x.Covers ((x.interval.search 1 17).1 * 10 ^ (x.interval.search 1 17).2) := by
  have hden := x.interval_denominator_pos
  have hplace : (10 : ℚ) ^ (x.interval.magnitude + 1 - (17 : ℕ)) * 10 ^ 16 ≤ x.magnitude := by
    have hle := tenPower_magnitude_le hden (interval_value_pos hx)
    rw [interval_value] at hle
    refine le_trans (le_of_eq ?_) hle
    rw [← zpow_natCast, ← zpow_add₀ (by norm_num)]
    congr 1
    push_cast
    ring
  obtain ⟨n, rest, hn, hnear⟩ := exists_neighbours_eq hden (x.interval.magnitude + 1 - (17 : ℕ))
  rw [interval_value] at hnear
  have hholds := (holds_iff hx n _).2 (covers_of_near h hplace hnear)
  rw [← holds_iff hx]
  refine holds_search ?_ 17 1 (by decide : 1 ≤ 17) (by decide)
  rw [hn, List.find?_cons, hholds]
  rfl

lemma lower_pos (hx : 0 < x.significand) : 0 < x.lower := by
  refine lt_of_lt_of_le ?_ (le_lower x)
  have hone : (1 : ℚ) ≤ x.significand := by exact_mod_cast hx
  exact mul_pos (by linarith) (zpow_pos two_pos _)

def digitValue (ds : List ℕ) (k : ℤ) : ℚ := ofDigits ds * 10 ^ (k + 1 - ds.length)

theorem shortest_spec (h : x.IsRegular) (hx : 0 < x.significand) :
    x.shortest.1 ≠ [] ∧ (∀ d ∈ x.shortest.1, d < 10) ∧ x.shortest.1.head? ≠ some 0 ∧
      x.Covers (digitValue x.shortest.1 x.shortest.2) := by
  have hcovers := covers_search h hx
  rw [shortest]
  dsimp only
  generalize (x.interval.search 1 17).1 = n at hcovers ⊢
  generalize (x.interval.search 1 17).2 = place at hcovers ⊢
  have hn : n ≠ 0 := by
    rintro rfl
    have hlow := (lower_pos hx).trans_le hcovers.bounds.1
    simp at hlow
  obtain ⟨k, hk⟩ := exists_eq_append_zeros (digits n)
  generalize ((digits n).reverse.dropWhile (· == 0)).reverse = ds at hk ⊢
  have hne : ds ≠ [] := by
    rintro rfl
    have hzero := ofDigits_digits n
    rw [hk, List.nil_append, ofDigits_replicate_zero] at hzero
    exact hn hzero.symm
  refine ⟨hne, fun d hd => lt_ten_of_mem_digits (n := n) (by rw [hk]; simp [hd]), ?_, ?_⟩
  · have hhead := head?_digits hn
    rwa [hk, List.head?_append_of_ne_nil _ hne] at hhead
  · have hvalue := ofDigits_digits n
    rw [hk, ofDigits_append, ofDigits_replicate_zero, List.length_replicate] at hvalue
    have hlength : (digits n).length = ds.length + k := by
      rw [hk, List.length_append, List.length_replicate]
    have hexp : place + ((ds.length + k : ℕ) : ℤ) - 1 + 1 - ds.length = k + place := by
      push_cast
      ring
    rw [hlength, digitValue, hexp, zpow_add₀ (by norm_num), zpow_natCast, ← mul_assoc]
    convert hcovers using 2
    rw [← hvalue]
    push_cast
    ring

end Search

end CorridorTrust.Decimal.Binary64
