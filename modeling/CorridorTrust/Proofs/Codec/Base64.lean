import Mathlib
import CorridorTrust.Codec.Base64
import CorridorTrust.Proofs.Text.Utf8

namespace CorridorTrust.Base64

structure Variant.IsReadable (v : Variant) : Prop where
  sextet : ∀ n < 64, v.sextet? (v.symbol n) = some n
  ne_pad : ∀ n < 64, v.symbol n ≠ '='

lemma isReadable_standard : standard.IsReadable := ⟨by decide, by decide⟩

lemma isReadable_address : address.IsReadable := ⟨by decide, by decide⟩

variable {v : Variant}

lemma toUInt8_eq {n : ℕ} {a : UInt8} (h : n = a.toNat) : n.toUInt8 = a := by
  rw [h]
  exact UInt8.ofNat_toNat

lemma lastByte?_symbols (h : v.IsReadable) (a : UInt8) :
    lastByte? v (v.symbol (a.toNat / 4)) (v.symbol (a.toNat % 4 * 16)) = some [a] := by
  have ha := a.toNat_lt
  have hbyte : (a.toNat / 4 * 4 + a.toNat % 4 * 16 / 16).toUInt8 = a := toUInt8_eq (by omega)
  rw [lastByte?, h.sextet _ (by omega), h.sextet _ (by omega)]
  simp only [Option.bind_eq_bind, Option.bind_some]
  rw [if_pos (by omega), hbyte]

lemma lastBytes?_symbols (h : v.IsReadable) (a b : UInt8) :
    lastBytes? v (v.symbol (a.toNat / 4)) (v.symbol (a.toNat % 4 * 16 + b.toNat / 16))
      (v.symbol (b.toNat % 16 * 4)) = some [a, b] := by
  have ha := a.toNat_lt
  have hb := b.toNat_lt
  have hfirst : (a.toNat / 4 * 4 + (a.toNat % 4 * 16 + b.toNat / 16) / 16).toUInt8 = a :=
    toUInt8_eq (by omega)
  have hsecond : ((a.toNat % 4 * 16 + b.toNat / 16) % 16 * 16 + b.toNat % 16 * 4 / 4).toUInt8 = b :=
    toUInt8_eq (by omega)
  rw [lastBytes?, h.sextet _ (by omega), h.sextet _ (by omega), h.sextet _ (by omega)]
  simp only [Option.bind_eq_bind, Option.bind_some]
  rw [if_pos (by omega), hfirst, hsecond]

lemma group?_symbols (h : v.IsReadable) (a b c : UInt8) :
    group? v (v.symbol (a.toNat / 4)) (v.symbol (a.toNat % 4 * 16 + b.toNat / 16))
      (v.symbol (b.toNat % 16 * 4 + c.toNat / 64)) (v.symbol (c.toNat % 64)) = some [a, b, c] := by
  have ha := a.toNat_lt
  have hb := b.toNat_lt
  have hc := c.toNat_lt
  have hfirst : (a.toNat / 4 * 4 + (a.toNat % 4 * 16 + b.toNat / 16) / 16).toUInt8 = a :=
    toUInt8_eq (by omega)
  have hsecond : ((a.toNat % 4 * 16 + b.toNat / 16) % 16 * 16 +
      (b.toNat % 16 * 4 + c.toNat / 64) / 4).toUInt8 = b := toUInt8_eq (by omega)
  have hthird : ((b.toNat % 16 * 4 + c.toNat / 64) % 4 * 64 + c.toNat % 64).toUInt8 = c :=
    toUInt8_eq (by omega)
  rw [group?, h.sextet _ (by omega), h.sextet _ (by omega), h.sextet _ (by omega),
    h.sextet _ (by omega)]
  simp only [Option.bind_eq_bind, Option.bind_some]
  rw [hfirst, hsecond, hthird]

theorem decode?_encode (h : v.IsReadable) (bs : Bytes) : decode? v (encode v bs) = some bs := by
  fun_induction encode v bs with
  | case1 => rfl
  | case2 a =>
    cases hpadded : v.padded <;>
      simp [decode?, Variant.pad, hpadded, List.replicate, lastByte?_symbols h]
  | case3 a b =>
    have hne := h.ne_pad (b.toNat % 16 * 4) (by omega)
    cases hpadded : v.padded <;>
      simp [decode?, Variant.pad, hpadded, List.replicate, lastBytes?_symbols h, hne]
  | case4 a b c bs ih =>
    have hne := h.ne_pad (c.toNat % 64) (by omega)
    simp [decode?, hne, group?_symbols h, ih]

lemma symbol_of_sextet? {c : Char} {n : ℕ} (h : v.sextet? c = some n) : n < 64 ∧ v.symbol n = c := by
  have hbound {a b : Char} (hc : a ≤ c ∧ c ≤ b) : a.toNat ≤ c.toNat ∧ c.toNat ≤ b.toNat := hc
  have hA : 'A'.toNat = 65 := rfl
  have hZ : 'Z'.toNat = 90 := rfl
  have ha : 'a'.toNat = 97 := rfl
  have hz : 'z'.toNat = 122 := rfl
  have h0 : '0'.toNat = 48 := rfl
  have h9 : '9'.toNat = 57 := rfl
  unfold Variant.sextet? at h
  split_ifs at h with hupper hlower hdigit hplus hslash
  · obtain rfl := Option.some.inj h
    obtain ⟨hlow, hhigh⟩ := hbound hupper
    refine ⟨by omega, ?_⟩
    rw [Variant.symbol, if_pos (by omega), Nat.add_sub_cancel' hlow, Char.ofNat_toNat]
  · obtain rfl := Option.some.inj h
    obtain ⟨hlow, hhigh⟩ := hbound hlower
    have hback : 'a'.toNat + (c.toNat - 'a'.toNat + 26 - 26) = c.toNat := by omega
    refine ⟨by omega, ?_⟩
    rw [Variant.symbol, if_neg (by omega), if_pos (by omega), hback, Char.ofNat_toNat]
  · obtain rfl := Option.some.inj h
    obtain ⟨hlow, hhigh⟩ := hbound hdigit
    have hback : '0'.toNat + (c.toNat - '0'.toNat + 52 - 52) = c.toNat := by omega
    refine ⟨by omega, ?_⟩
    rw [Variant.symbol, if_neg (by omega), if_neg (by omega), if_pos (by omega), hback, Char.ofNat_toNat]
  · obtain rfl := Option.some.inj h
    exact ⟨by decide, hplus.symm⟩
  · obtain rfl := Option.some.inj h
    exact ⟨by decide, hslash.symm⟩

section Unpadded

variable {a b c d : Char} {bs : Bytes}

lemma eq_encode_of_lastByte? (hpad : v.padded = false) (h : lastByte? v a b = some bs) :
    [a, b] = encode v bs := by
  simp only [lastByte?, Option.bind_eq_bind, Option.bind_eq_some_iff] at h
  obtain ⟨x, hx, y, hy, h⟩ := h
  split_ifs at h with hrest
  obtain rfl := Option.some.inj h
  obtain ⟨hxlt, rfl⟩ := symbol_of_sextet? hx
  obtain ⟨hylt, rfl⟩ := symbol_of_sextet? hy
  have hfirst : (x * 4 + y / 16) / 4 = x := by omega
  have hsecond : (x * 4 + y / 16) % 4 * 16 = y := by omega
  rw [encode, Variant.pad, hpad, Utf8.toNat_toUInt8 (by omega), hfirst, hsecond]
  rfl

lemma eq_encode_of_lastBytes? (hpad : v.padded = false) (h : lastBytes? v a b c = some bs) :
    [a, b, c] = encode v bs := by
  simp only [lastBytes?, Option.bind_eq_bind, Option.bind_eq_some_iff] at h
  obtain ⟨x, hx, y, hy, z, hz, h⟩ := h
  split_ifs at h with hrest
  obtain rfl := Option.some.inj h
  obtain ⟨hxlt, rfl⟩ := symbol_of_sextet? hx
  obtain ⟨hylt, rfl⟩ := symbol_of_sextet? hy
  obtain ⟨hzlt, rfl⟩ := symbol_of_sextet? hz
  have hfirst : (x * 4 + y / 16) / 4 = x := by omega
  have hsecond : (x * 4 + y / 16) % 4 * 16 + (y % 16 * 16 + z / 4) / 16 = y := by omega
  have hthird : (y % 16 * 16 + z / 4) % 16 * 4 = z := by omega
  rw [encode, Variant.pad, hpad, Utf8.toNat_toUInt8 (by omega), Utf8.toNat_toUInt8 (by omega), hfirst, hsecond, hthird]
  rfl

lemma exists_of_group? (h : group? v a b c d = some bs) :
    ∃ i j k : UInt8, bs = [i, j, k] ∧ a = v.symbol (i.toNat / 4) ∧
      b = v.symbol (i.toNat % 4 * 16 + j.toNat / 16) ∧
      c = v.symbol (j.toNat % 16 * 4 + k.toNat / 64) ∧ d = v.symbol (k.toNat % 64) := by
  simp only [group?, Option.bind_eq_bind, Option.bind_eq_some_iff, Option.some.injEq] at h
  obtain ⟨x, hx, y, hy, z, hz, w, hw, rfl⟩ := h
  obtain ⟨hxlt, rfl⟩ := symbol_of_sextet? hx
  obtain ⟨hylt, rfl⟩ := symbol_of_sextet? hy
  obtain ⟨hzlt, rfl⟩ := symbol_of_sextet? hz
  obtain ⟨hwlt, rfl⟩ := symbol_of_sextet? hw
  refine ⟨_, _, _, rfl, ?_⟩
  rw [Utf8.toNat_toUInt8 (by omega), Utf8.toNat_toUInt8 (by omega), Utf8.toNat_toUInt8 (by omega)]
  refine ⟨?_, ?_, ?_, ?_⟩ <;> apply congrArg <;> omega

theorem eq_encode_of_decode? (hpad : v.padded = false) {cs : List Char} (h : decode? v cs = some bs) :
    cs = encode v bs := by
  fun_induction decode? v cs generalizing bs with
  | case1 =>
    obtain rfl := Option.some.inj h
    rfl
  | case2 => cases h
  | case4 a b hplain => exact eq_encode_of_lastByte? hpad h
  | case6 a b c hplain => exact eq_encode_of_lastBytes? hpad h
  | case10 a b c d cs hplain ih =>
    simp only [Option.bind_eq_bind, Option.bind_eq_some_iff, Option.some.injEq] at h
    obtain ⟨group, hgroup, rest, hrest, rfl⟩ := h
    obtain ⟨i, j, k, rfl, rfl, rfl, rfl, rfl⟩ := exists_of_group? hgroup
    rw [ih hrest]
    rfl
  | _ => simp_all

lemma ne_pad_of_mem_encode (h : v.IsReadable) (hpad : v.padded = false) {d : Char}
    (hd : d ∈ encode v bs) : d ≠ '=' := by
  fun_induction encode v bs with
  | case1 => cases hd
  | case2 x =>
    have hx := x.toNat_lt
    simp only [Variant.pad, hpad, Bool.false_eq_true, if_false, List.append_nil, List.mem_cons,
      List.not_mem_nil, or_false] at hd
    rcases hd with rfl | rfl <;> exact h.ne_pad _ (by omega)
  | case3 x y =>
    have hx := x.toNat_lt
    have hy := y.toNat_lt
    simp only [Variant.pad, hpad, Bool.false_eq_true, if_false, List.append_nil, List.mem_cons,
      List.not_mem_nil, or_false] at hd
    rcases hd with rfl | rfl | rfl <;> exact h.ne_pad _ (by omega)
  | case4 x y z bs ih =>
    have hx := x.toNat_lt
    have hy := y.toNat_lt
    have hz := z.toNat_lt
    simp only [List.mem_cons] at hd
    rcases hd with rfl | rfl | rfl | rfl | hd
    · exact h.ne_pad _ (by omega)
    · exact h.ne_pad _ (by omega)
    · exact h.ne_pad _ (by omega)
    · exact h.ne_pad _ (by omega)
    · exact ih hd

end Unpadded

end CorridorTrust.Base64
