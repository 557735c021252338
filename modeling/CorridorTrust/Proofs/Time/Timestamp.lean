import CorridorTrust.Fault
import CorridorTrust.Proofs.Sequence
import CorridorTrust.Proofs.Time.Instant

namespace CorridorTrust.Time

namespace Timestamp

open Sequence

variable {cs rest : List Char}

lemma digit_lt_ten {c : Char} (h : c.isDigit = true) : c.toNat - '0'.toNat < 10 := by
  have hc : 48 ≤ c.toNat ∧ c.toNat ≤ 57 := by simpa [Char.isDigit, UInt32.le_iff_toNat_le] using h
  have hzero : '0'.toNat = 48 := rfl
  omega

lemma ofDigitChars_lt (h : ∀ c ∈ cs, c.isDigit = true) (n : ℕ) :
    Nat.ofDigitChars 10 cs n < 10 ^ cs.length * (n + 1) := by
  induction cs generalizing n with
  | nil => simp
  | cons c cs ih =>
    have hc := digit_lt_ten (h c List.mem_cons_self)
    rw [Nat.ofDigitChars_cons, List.length_cons, pow_succ]
    calc Nat.ofDigitChars 10 cs (10 * n + (c.toNat - '0'.toNat))
        < 10 ^ cs.length * (10 * n + (c.toNat - '0'.toNat) + 1) :=
          ih (fun d hd => h d (List.mem_cons_of_mem _ hd)) _
      _ ≤ 10 ^ cs.length * (10 * (n + 1)) := Nat.mul_le_mul_left _ (by omega)
      _ = 10 ^ cs.length * 10 * (n + 1) := (Nat.mul_assoc _ _ _).symm

lemma readFraction_lt {n : ℕ} (h : readFraction cs = .ok (n, rest)) : n < 10 ^ 9 := by
  unfold readFraction at h
  split at h
  next cs =>
    split at h
    · cases h
    next ds hds =>
      obtain ⟨rfl, -⟩ := Prod.mk.inj (Except.ok.inj h)
      have hdigits : ∀ c ∈ (cs.takeWhile Char.isDigit ++ List.replicate 9 '0').take 9,
          c.isDigit = true := by
        intro c hc
        rcases List.mem_append.1 (List.mem_of_mem_take hc) with hc | hc
        · exact List.mem_takeWhile_imp hc
        · rw [List.eq_of_mem_replicate hc]
          rfl
      have hlt := ofDigitChars_lt hdigits 0
      rw [← Nat.ofDigitChars_eq_foldl]
      simpa using hlt
  next =>
    obtain ⟨rfl, -⟩ := Prod.mk.inj (Except.ok.inj h)
    decide

lemma readOffset_mod {offset : ℤ} (h : readOffset cs = .ok (offset, rest)) : offset % 60 = 0 := by
  unfold readOffset at h
  split at h
  · cases h
  split at h
  · obtain ⟨rfl, -⟩ := Prod.mk.inj (Except.ok.inj h)
    rfl
  split at h
  · split at h
    · obtain ⟨hours, -, h⟩ := bind_eq_ok_iff.1 h
      split at h
      · cases h
      obtain ⟨-, -, h⟩ := bind_eq_ok_iff.1 h
      split at h
      · obtain ⟨minutes, -, h⟩ := bind_eq_ok_iff.1 h
        obtain ⟨-, -, h⟩ := bind_eq_ok_iff.1 h
        obtain ⟨rfl, -⟩ := Prod.mk.inj (Except.ok.inj h)
        split_ifs <;> omega
      · cases h
    · cases h
  · cases h

lemma isProper_instant {t : Clock} {nanos : ℕ} {offset : ℤ} (hnanos : nanos < 10 ^ 9)
    (hoffset : offset % 60 = 0) : (instant t nanos offset).IsProper := by
  constructor
  · change nanos + (if t.second = 60 then 1000000000 else 0) < 2 * 10 ^ 9
    split_ifs <;> omega
  · intro hleap
    change 10 ^ 9 ≤ nanos + (if t.second = 60 then 1000000000 else 0) at hleap
    change (86400 * t.days + (3600 * t.hour + 60 * t.minute + min t.second 59 : ℕ) - offset) % 60 = 59
    split_ifs at hleap with hsixty
    · omega
    · omega

theorem isProper_of_read {s : String} {t : Instant} (h : read s = .ok t) : t.IsProper := by
  rw [read, readChars] at h
  obtain ⟨-, -, h⟩ := bind_eq_ok_iff.1 h
  obtain ⟨clock, -, h⟩ := bind_eq_ok_iff.1 h
  obtain ⟨⟨nanos, cs⟩, hfraction, h⟩ := bind_eq_ok_iff.1 h
  obtain ⟨-, -, h⟩ := bind_eq_ok_iff.1 h
  obtain ⟨⟨offset, cs'⟩, hoffset, h⟩ := bind_eq_ok_iff.1 h
  obtain ⟨-, -, h⟩ := bind_eq_ok_iff.1 h
  obtain ⟨-, -, h⟩ := bind_eq_ok_iff.1 h
  obtain rfl : instant clock nanos offset = t := Except.ok.inj h
  exact isProper_instant (readFraction_lt hfraction) (readOffset_mod hoffset)

end Timestamp

lemma Instant.isProper_of_parse {s : String} {t : Instant} (h : parse s = .ok t) : t.IsProper := by
  rw [parse] at h
  split at h
  next u hread =>
    obtain rfl : u = t := Except.ok.inj h
    exact Timestamp.isProper_of_read hread
  next => cases h

end CorridorTrust.Time
