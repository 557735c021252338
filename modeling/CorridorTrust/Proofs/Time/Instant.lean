import CorridorTrust.Proofs.Time.Date
import CorridorTrust.Time.Timestamp

namespace CorridorTrust.Time

namespace Instant

section Digits

variable {width m n : ℕ} {r s : List Char}

@[simp]
lemma length_padded (width n : ℕ) : (padded width n).length = width := by
  induction width generalizing n with
  | zero => rfl
  | succ width ih => simp [padded, ih]

lemma isDigit_of_mem_padded {c : Char} (h : c ∈ padded width n) : c.isDigit = true := by
  induction width generalizing n with
  | zero => cases h
  | succ width ih =>
    rcases List.mem_append.1 h with h | h
    · exact ih h
    · obtain rfl := List.mem_singleton.1 h
      rw [Nat.isDigit_digitChar]
      simpa using Nat.mod_lt n (by decide)

lemma ofDigitChars_padded (h : n < 10 ^ width) : Nat.ofDigitChars 10 (padded width n) 0 = n := by
  induction width generalizing n with
  | zero =>
    obtain rfl : n = 0 := by simpa using h
    rfl
  | succ width ih =>
    have hlast : n % 10 < 10 := Nat.mod_lt n (by decide)
    rw [padded, Nat.ofDigitChars_append, ih (by rw [pow_succ] at h; omega),
      Nat.ofDigitChars_cons_digitChar_of_lt_ten hlast, Nat.ofDigitChars_nil]
    omega

lemma takeWhile_digits {ds : List Char} (h : ∀ c ∈ ds, c.isDigit = true) {c : Char}
    (hc : c.isDigit = false) (cs : List Char) : (ds ++ c :: cs).takeWhile Char.isDigit = ds := by
  rw [List.takeWhile_append_of_pos h, List.takeWhile_cons_of_neg (by simp [hc]), List.append_nil]

lemma padded_append_inj (hm : m < 10 ^ width) (hn : n < 10 ^ width)
    (h : padded width m ++ r = padded width n ++ s) : m = n ∧ r = s := by
  obtain ⟨hdigits, hrest⟩ := List.append_inj h (by simp)
  refine ⟨?_, hrest⟩
  rw [← ofDigitChars_padded hm, hdigits, ofDigitChars_padded hn]

end Digits

section Year

variable {y z : ℤ} {r s : List Char}

def yearDigits (n : ℕ) : List Char := if n < 10000 then padded 4 n else Nat.toDigits 10 n

def yearSign (y : ℤ) : List Char := if y < 0 then ['-'] else if y < 10000 then [] else ['+']

lemma writeYear_eq (y : ℤ) : writeYear y = yearSign y ++ yearDigits y.natAbs := by
  rw [writeYear, yearSign, yearDigits]
  split_ifs <;> rfl

lemma isDigit_of_mem_yearDigits {n : ℕ} {c : Char} (h : c ∈ yearDigits n) : c.isDigit = true := by
  rw [yearDigits] at h
  split_ifs at h
  · exact isDigit_of_mem_padded h
  · exact Nat.isDigit_of_mem_toDigits (by decide) (by decide) h

lemma ofDigitChars_yearDigits (n : ℕ) : Nat.ofDigitChars 10 (yearDigits n) 0 = n := by
  rw [yearDigits]
  split_ifs with h
  · exact ofDigitChars_padded h
  · exact Nat.ofDigitChars_toDigits (by decide) (by decide)

lemma yearDigits_ne_nil (n : ℕ) : yearDigits n ≠ [] := by
  rw [yearDigits]
  split_ifs
  · exact List.ne_nil_of_length_pos (by simp)
  · exact Nat.toDigits_ne_nil

lemma yearDigits_append_inj {m n : ℕ} (h : yearDigits m ++ '-' :: r = yearDigits n ++ '-' :: s) :
    m = n ∧ r = s := by
  have htake {k : ℕ} {t : List Char} :
      (yearDigits k ++ '-' :: t).takeWhile Char.isDigit = yearDigits k :=
    takeWhile_digits (fun c hc => isDigit_of_mem_yearDigits hc) rfl t
  have hdigits : yearDigits m = yearDigits n := by rw [← htake, h, htake]
  rw [hdigits] at h
  refine ⟨?_, (List.cons.inj (List.append_cancel_left h)).2⟩
  rw [← ofDigitChars_yearDigits m, hdigits, ofDigitChars_yearDigits]

lemma ne_sign_of_isDigit {c : Char} (h : c.isDigit = true) : c ≠ '-' ∧ c ≠ '+' := by
  constructor
  · rintro rfl
    cases h
  · rintro rfl
    cases h

lemma yearSign_inj (h : writeYear y ++ r = writeYear z ++ s) : yearSign y = yearSign z := by
  obtain ⟨c, cs, hc⟩ := List.exists_cons_of_ne_nil (yearDigits_ne_nil y.natAbs)
  obtain ⟨d, ds, hd⟩ := List.exists_cons_of_ne_nil (yearDigits_ne_nil z.natAbs)
  have hc' := ne_sign_of_isDigit (isDigit_of_mem_yearDigits (hc ▸ List.mem_cons_self : c ∈ _))
  have hd' := ne_sign_of_isDigit (isDigit_of_mem_yearDigits (hd ▸ List.mem_cons_self : d ∈ _))
  rw [writeYear_eq, writeYear_eq, hc, hd] at h
  unfold yearSign at h ⊢
  split_ifs at h ⊢ <;> simp at h ⊢ <;> grind

lemma writeYear_append_inj (h : writeYear y ++ '-' :: r = writeYear z ++ '-' :: s) :
    y = z ∧ r = s := by
  have hsign := yearSign_inj h
  rw [writeYear_eq, writeYear_eq, hsign, List.append_assoc, List.append_assoc] at h
  obtain ⟨habs, hrest⟩ := yearDigits_append_inj (List.append_cancel_left h)
  have hneg : y < 0 ↔ z < 0 := by
    unfold yearSign at hsign
    split_ifs at hsign <;> first | omega | simp at hsign
  exact ⟨by omega, hrest⟩

end Year

section Fraction

open Timestamp (readFraction)

lemma readFraction_padded {width n : ℕ} (hpos : 0 < width) (hle : width ≤ 9) (hn : n < 10 ^ width) :
    readFraction ('.' :: (padded width n ++ ['Z'])) = .ok (n * 10 ^ (9 - width), ['Z']) := by
  have htake : (padded width n ++ ['Z']).takeWhile Char.isDigit = padded width n :=
    takeWhile_digits (fun c hc => isDigit_of_mem_padded hc) rfl []
  have hdrop : (padded width n ++ ['Z']).dropWhile Char.isDigit = ['Z'] := by
    rw [List.dropWhile_append_of_pos fun c hc => isDigit_of_mem_padded hc,
      List.dropWhile_cons_of_neg (by decide)]
  have hkept : (padded width n ++ List.replicate 9 '0').take 9 =
      padded width n ++ List.replicate (9 - width) '0' := by
    rw [List.take_append, length_padded, List.take_of_length_le (by simpa using hle),
      List.take_replicate, Nat.min_eq_left (Nat.sub_le 9 width)]
  simp only [readFraction, htake, hdrop]
  split
  next hnil =>
    have hlength := congrArg List.length hnil
    rw [length_padded, List.length_nil] at hlength
    omega
  next =>
    rw [hkept, ← Nat.ofDigitChars_eq_foldl, Nat.ofDigitChars_append, ofDigitChars_padded hn,
      Nat.ofDigitChars_replicate_zero, Nat.mul_comm]

lemma readFraction_writeFraction {n : ℕ} (h : n < 10 ^ 9) :
    readFraction (writeFraction n ++ ['Z']) = .ok (n, ['Z']) := by
  rw [writeFraction]
  split_ifs with hzero hthree hsix
  · subst hzero
    rfl
  · have hn : n / 1000000 * 10 ^ (9 - 3) = n := by omega
    rw [List.cons_append, readFraction_padded (by decide) (by decide) (by omega), hn]
  · have hn : n / 1000 * 10 ^ (9 - 6) = n := by omega
    rw [List.cons_append, readFraction_padded (by decide) (by decide) (by omega), hn]
  · rw [List.cons_append, readFraction_padded (by decide) (by decide) h, Nat.sub_self, Nat.pow_zero,
      Nat.mul_one]

end Fraction

structure IsProper (t : Instant) : Prop where
  nanos_lt : t.nanos < 2 * 10 ^ 9
  leap : 10 ^ 9 ≤ t.nanos → t.seconds % 60 = 59

lemma date_lt (n : ℤ) : (Date.ofDays n).month < 10 ^ 2 ∧ (Date.ofDays n).day < 10 ^ 2 := by
  have hvalid := Date.isValid_ofDays n
  simp only [Date.isValid, Bool.and_eq_true, decide_eq_true_eq] at hvalid
  obtain ⟨⟨⟨-, hmonth⟩, -⟩, hday⟩ := hvalid
  unfold Date.monthLength at hday
  split_ifs at hday <;> omega

theorem eq_of_write_eq {t u : Instant} (ht : t.IsProper) (hu : u.IsProper) (h : t.write = u.write) :
    t = u := by
  have htnanos := ht.nanos_lt
  have hunanos := hu.nanos_lt
  have htleap := ht.leap
  have huleap := hu.leap
  obtain ⟨htmonth, htday⟩ := date_lt (t.seconds / 86400)
  obtain ⟨humonth, huday⟩ := date_lt (u.seconds / 86400)
  simp only [write, List.append_assoc, List.cons_append] at h
  obtain ⟨hyear, h⟩ := writeYear_append_inj h
  obtain ⟨hmonth, h⟩ := padded_append_inj htmonth humonth h
  obtain ⟨hday, h⟩ := padded_append_inj htday huday (List.cons.inj h).2
  obtain ⟨hhour, h⟩ := padded_append_inj (by omega) (by omega) (List.cons.inj h).2
  obtain ⟨hminute, h⟩ := padded_append_inj (by omega) (by omega) (List.cons.inj h).2
  obtain ⟨hsecond, h⟩ := padded_append_inj (by omega) (by omega) (List.cons.inj h).2
  have hfraction := congrArg Timestamp.readFraction h
  rw [readFraction_writeFraction (by omega), readFraction_writeFraction (by omega)] at hfraction
  have hnanos : t.nanos % 1000000000 = u.nanos % 1000000000 := by simpa using hfraction
  have hdate : Date.ofDays (t.seconds / 86400) = Date.ofDays (u.seconds / 86400) := by
    cases hd : Date.ofDays (t.seconds / 86400)
    cases he : Date.ofDays (u.seconds / 86400)
    simp_all
  have hdays := Date.ofDays_injective hdate
  obtain ⟨seconds, nanos⟩ := t
  obtain ⟨seconds', nanos'⟩ := u
  simp only [mk.injEq] at *
  constructor <;> omega

theorem eq_of_toText_eq {t u : Instant} (ht : t.IsProper) (hu : u.IsProper) (h : t.toText = u.toText) :
    t = u := eq_of_write_eq ht hu (String.ofList_injective h)

lemma toText_ne_empty (t : Instant) : t.toText ≠ "" := by
  intro h
  have hlist := congrArg String.toList h
  simp [toText, write] at hlist

end Instant

end CorridorTrust.Time
