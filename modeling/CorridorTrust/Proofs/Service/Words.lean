import CorridorTrust.Proofs.Time.Timestamp
import CorridorTrust.Service.Settings

namespace CorridorTrust.Settings

variable {cs : List Char} {s : String} {n : UInt64}

lemma digitChar_sub {c : Char} (h : c.isDigit = true) : Nat.digitChar (c.toNat - '0'.toNat) = c := by
  have hc : 48 ≤ c.toNat ∧ c.toNat ≤ 57 := by simpa [Char.isDigit, UInt32.le_iff_toNat_le] using h
  have hzero : '0'.toNat = 48 := rfl
  apply Char.toNat_inj.1
  rw [Nat.toNat_digitChar_of_lt_ten (by omega)]
  omega

lemma exists_zeros (hne : cs ≠ []) (h : ∀ c ∈ cs, c.isDigit = true) :
    ∃ zeros, cs = List.replicate zeros '0' ++ Nat.toDigits 10 (Nat.ofDigitChars 10 cs 0) := by
  induction cs using List.reverseRecOn with
  | nil => exact absurd rfl hne
  | append_singleton cs c ih =>
    have hc : c.isDigit = true := h c (by simp)
    have hlast : Nat.toDigits 10 (c.toNat - '0'.toNat) = [c] := by
      rw [Nat.toDigits_of_lt_base (Time.Timestamp.digit_lt_ten hc), digitChar_sub hc]
    rw [Nat.ofDigitChars_append, Nat.ofDigitChars_cons, Nat.ofDigitChars_nil]
    by_cases hcs : cs = []
    · subst hcs
      exact ⟨0, by rw [Nat.ofDigitChars_nil, Nat.mul_zero, Nat.zero_add, hlast]; rfl⟩
    · obtain ⟨zeros, hzeros⟩ := ih hcs fun d hd => h d (List.mem_append_left _ hd)
      generalize Nat.ofDigitChars 10 cs 0 = v at hzeros ⊢
      -- zeros alone have the digit of their number as one of them
      rcases Nat.eq_zero_or_pos v with rfl | hv
      · refine ⟨zeros + 1, ?_⟩
        rw [hzeros, Nat.mul_zero, Nat.zero_add, hlast, List.replicate_succ']
        rfl
      · refine ⟨zeros, ?_⟩
        rw [hzeros, ← Nat.toDigits_append_toDigits (by decide) hv (Time.Timestamp.digit_lt_ten hc), hlast,
          List.append_assoc]

lemma ofDigits_map_digitOf (cs : List Char) :
    Decimal.ofDigits (cs.map Json.Numeral.digitOf) = Nat.ofDigitChars 10 cs 0 := by
  rw [Nat.ofDigitChars_eq_foldl, Decimal.ofDigits, List.foldl_map]
  rfl

def unsigned : List Char → List Char
  | '+' :: cs => cs
  | cs => cs

lemma unsigned_cases (cs : List Char) : cs = unsigned cs ∨ cs = '+' :: unsigned cs := by
  unfold unsigned
  split
  · exact .inr rfl
  · exact .inl rfl

lemma unsigned_of_digits (h : ∀ c ∈ cs, c.isDigit = true) : unsigned cs = cs := by
  unfold unsigned
  split
  · exact absurd (h '+' List.mem_cons_self) (by decide)
  · rfl

lemma readWord?_eq (s : String) : readWord? s =
    if unsigned s.toList ≠ [] ∧ (unsigned s.toList).all Char.isDigit = true then
      if Nat.ofDigitChars 10 (unsigned s.toList) 0 < UInt64.size then
        some (Nat.ofDigitChars 10 (unsigned s.toList) 0).toUInt64
      else none
    else none := by
  rw [← ofDigits_map_digitOf]
  rfl

def IsWord (cs : List Char) (n : UInt64) : Prop :=
  ∃ sign zeros, (sign = [] ∨ sign = ['+']) ∧
    cs = sign ++ (List.replicate zeros '0' ++ Nat.toDigits 10 n.toNat)

lemma isWord_of_readWord? (h : readWord? s = some n) : IsWord s.toList n := by
  rw [readWord?_eq] at h
  split_ifs at h with hdigits hlt
  obtain ⟨hne, hall⟩ := hdigits
  obtain ⟨zeros, hzeros⟩ := exists_zeros hne (List.all_eq_true.1 hall)
  have hn : n.toNat = Nat.ofDigitChars 10 (unsigned s.toList) 0 := by
    rw [← Option.some.inj h]
    exact UInt64.toNat_ofNat_of_lt' hlt
  rw [← hn] at hzeros
  rcases unsigned_cases s.toList with hs | hs
  · exact ⟨[], zeros, .inl rfl, by rw [hs, hzeros, List.nil_append]⟩
  · exact ⟨['+'], zeros, .inr rfl, by rw [hs, hzeros, List.singleton_append]⟩

lemma readWord?_of_isWord (h : IsWord s.toList n) : readWord? s = some n := by
  obtain ⟨sign, zeros, hsign, hs⟩ := h
  have hdigits : ∀ c ∈ List.replicate zeros '0' ++ Nat.toDigits 10 n.toNat, c.isDigit = true := by
    intro c hc
    rcases List.mem_append.1 hc with hc | hc
    · rw [List.eq_of_mem_replicate hc]
      rfl
    · exact Nat.isDigit_of_mem_toDigits (by decide) (by decide) hc
  have hunsigned : unsigned s.toList = List.replicate zeros '0' ++ Nat.toDigits 10 n.toNat := by
    rw [hs]
    rcases hsign with rfl | rfl
    · exact unsigned_of_digits hdigits
    · rfl
  have hvalue : Nat.ofDigitChars 10 (unsigned s.toList) 0 = n.toNat := by
    rw [hunsigned, Nat.ofDigitChars_append, Nat.ofDigitChars_replicate_zero, Nat.mul_zero,
      Nat.ofDigitChars_ten_toDigits]
  have hne : unsigned s.toList ≠ [] := by simp [hunsigned, Nat.toDigits_ne_nil]
  have hall : (unsigned s.toList).all Char.isDigit = true := by
    rw [hunsigned]
    exact List.all_eq_true.2 hdigits
  rw [readWord?_eq, if_pos ⟨hne, hall⟩, hvalue, if_pos n.toNat_lt_size]
  exact congrArg some UInt64.ofNat_toNat

lemma readWord?_eq_some_iff : readWord? s = some n ↔ IsWord s.toList n :=
  ⟨isWord_of_readWord?, readWord?_of_isWord⟩

end CorridorTrust.Settings
