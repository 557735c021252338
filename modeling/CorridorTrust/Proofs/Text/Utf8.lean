import Mathlib
import CorridorTrust.Text.Utf8

namespace CorridorTrust.Utf8

lemma toNat_toUInt8 {n : ℕ} (h : n < 256) : n.toUInt8.toNat = n := UInt8.toNat_ofNat_of_lt h

lemma toNat_lt (c : Char) : c.toNat < 0x110000 := by
  rcases c.valid with h | h
  · exact lt_trans (b := 0xd800) h (by decide)
  · exact h.2

section Scan

variable {c : Char} {s : Bytes}

lemma isContinuation_low (n : ℕ) : isContinuation (0x80 + n % 0x40).toUInt8 = true := by
  simp [isContinuation]
  omega

lemma scalar_toNat {least : ℕ} (h : least ≤ c.toNat) : scalar least c.toNat = some c := by
  rw [scalar, if_pos ⟨h, c.valid⟩, Char.ofNat_toNat]

lemma lead_one (h : c.toNat < 0x80) : lead c.toNat.toUInt8 s = (some c, 0) := by
  have ha : c.toNat.toUInt8.toNat = c.toNat := toNat_toUInt8 (by omega)
  unfold lead
  rw [ha, if_pos h, Char.ofNat_toNat]

lemma lead_two (h₁ : 0x80 ≤ c.toNat) (h₂ : c.toNat < 0x800) :
    lead (0xC0 + c.toNat / 0x40).toUInt8 ((0x80 + c.toNat % 0x40).toUInt8 :: s) = (some c, 1) := by
  have ha : (0xC0 + c.toNat / 0x40).toUInt8.toNat = 0xC0 + c.toNat / 0x40 := toNat_toUInt8 (by omega)
  have hb : (0x80 + c.toNat % 0x40).toUInt8.toNat = 0x80 + c.toNat % 0x40 := toNat_toUInt8 (by omega)
  have hn : (0xC0 + c.toNat / 0x40) % 0x20 * 0x40 + (0x80 + c.toNat % 0x40) % 0x40 = c.toNat := by
    omega
  have hpair : pair (0xC0 + c.toNat / 0x40).toUInt8 (0x80 + c.toNat % 0x40).toUInt8 = some c := by
    rw [pair, if_pos ⟨by omega, by omega, isContinuation_low _⟩, ha, hb, hn, scalar_toNat h₁]
  simp only [lead, hpair]
  rw [if_neg (by omega)]

lemma lead_three (h₁ : 0x800 ≤ c.toNat) (h₂ : c.toNat < 0x10000) :
    lead (0xE0 + c.toNat / 0x1000).toUInt8 ((0x80 + c.toNat / 0x40 % 0x40).toUInt8 ::
      (0x80 + c.toNat % 0x40).toUInt8 :: s) = (some c, 2) := by
  have ha : (0xE0 + c.toNat / 0x1000).toUInt8.toNat = 0xE0 + c.toNat / 0x1000 :=
    toNat_toUInt8 (by omega)
  have hb : (0x80 + c.toNat / 0x40 % 0x40).toUInt8.toNat = 0x80 + c.toNat / 0x40 % 0x40 :=
    toNat_toUInt8 (by omega)
  have hc : (0x80 + c.toNat % 0x40).toUInt8.toNat = 0x80 + c.toNat % 0x40 := toNat_toUInt8 (by omega)
  have hn : (0xE0 + c.toNat / 0x1000) % 0x10 * 0x1000 + (0x80 + c.toNat / 0x40 % 0x40) % 0x40 * 0x40 +
      (0x80 + c.toNat % 0x40) % 0x40 = c.toNat := by omega
  have hpair : pair (0xE0 + c.toNat / 0x1000).toUInt8 (0x80 + c.toNat / 0x40 % 0x40).toUInt8 = none :=
    if_neg (by omega)
  have htriple : triple (0xE0 + c.toNat / 0x1000).toUInt8 (0x80 + c.toNat / 0x40 % 0x40).toUInt8
      (0x80 + c.toNat % 0x40).toUInt8 = some c := by
    rw [triple, if_pos ⟨by omega, by omega, isContinuation_low _, isContinuation_low _⟩, ha, hb, hc,
      hn, scalar_toNat h₁]
  simp only [lead, hpair, htriple]
  rw [if_neg (by omega)]

lemma lead_four (h : 0x10000 ≤ c.toNat) :
    lead (0xF0 + c.toNat / 0x40000).toUInt8 ((0x80 + c.toNat / 0x1000 % 0x40).toUInt8 ::
      (0x80 + c.toNat / 0x40 % 0x40).toUInt8 :: (0x80 + c.toNat % 0x40).toUInt8 :: s) =
        (some c, 3) := by
  have hlt := toNat_lt c
  have ha : (0xF0 + c.toNat / 0x40000).toUInt8.toNat = 0xF0 + c.toNat / 0x40000 :=
    toNat_toUInt8 (by omega)
  have hb : (0x80 + c.toNat / 0x1000 % 0x40).toUInt8.toNat = 0x80 + c.toNat / 0x1000 % 0x40 :=
    toNat_toUInt8 (by omega)
  have hc : (0x80 + c.toNat / 0x40 % 0x40).toUInt8.toNat = 0x80 + c.toNat / 0x40 % 0x40 :=
    toNat_toUInt8 (by omega)
  have hd : (0x80 + c.toNat % 0x40).toUInt8.toNat = 0x80 + c.toNat % 0x40 := toNat_toUInt8 (by omega)
  have hn : (0xF0 + c.toNat / 0x40000) % 0x08 * 0x40000 +
      (0x80 + c.toNat / 0x1000 % 0x40) % 0x40 * 0x1000 + (0x80 + c.toNat / 0x40 % 0x40) % 0x40 * 0x40 +
      (0x80 + c.toNat % 0x40) % 0x40 = c.toNat := by omega
  have hpair : pair (0xF0 + c.toNat / 0x40000).toUInt8 (0x80 + c.toNat / 0x1000 % 0x40).toUInt8 =
      none := if_neg (by omega)
  have htriple : triple (0xF0 + c.toNat / 0x40000).toUInt8 (0x80 + c.toNat / 0x1000 % 0x40).toUInt8
      (0x80 + c.toNat / 0x40 % 0x40).toUInt8 = none := if_neg (by omega)
  have hquadruple : quadruple (0xF0 + c.toNat / 0x40000).toUInt8
      (0x80 + c.toNat / 0x1000 % 0x40).toUInt8 (0x80 + c.toNat / 0x40 % 0x40).toUInt8
      (0x80 + c.toNat % 0x40).toUInt8 = some c := by
    rw [quadruple, if_pos ⟨by omega, by omega, isContinuation_low _, isContinuation_low _,
      isContinuation_low _⟩, ha, hb, hc, hd, hn, scalar_toNat h]
  simp only [lead, hpair, htriple, hquadruple]
  rw [if_neg (by omega)]

lemma scanAfter_encodeChar (c : Char) (s : Bytes) :
    scanAfter 0 (encodeChar c ++ s) = some c :: scanAfter 0 s := by
  unfold encodeChar
  dsimp only
  split_ifs with h₁ h₂ h₃
  · simp only [List.cons_append, List.nil_append, scanAfter, lead_one h₁]
  · simp only [List.cons_append, List.nil_append, scanAfter, lead_two (not_lt.1 h₁) h₂]
  · simp only [List.cons_append, List.nil_append, scanAfter, lead_three (not_lt.1 h₂) h₃]
  · simp only [List.cons_append, List.nil_append, scanAfter, lead_four (not_lt.1 h₃)]

theorem scan_encode (cs : List Char) : scan (encode cs) = cs.map some := by
  rw [scan, encode]
  induction cs with
  | nil => rfl
  | cons c cs ih => rw [List.flatMap_cons, scanAfter_encodeChar, ih, List.map_cons]

theorem ofString_injective : Function.Injective ofString := by
  intro a b h
  have hs := congrArg scan h
  rw [ofString, ofString, scan_encode, scan_encode] at hs
  exact String.toList_injective (List.map_injective_iff.2 (Option.some_injective _) hs)

end Scan

section Order

lemma encodeChar_lt {c d : Char} (h : c.toNat < d.toNat) (x y : Bytes) :
    encodeChar c ++ x < encodeChar d ++ y := by
  have hd := toNat_lt d
  unfold encodeChar
  generalize c.toNat = m at h
  generalize d.toNat = n at h hd
  dsimp only
  split_ifs <;>
    simp (disch := omega) only [List.cons_append, List.nil_append, List.cons_lt_cons_iff,
      UInt8.lt_iff_toNat_lt, ← UInt8.toNat_inj, toNat_toUInt8] <;>
    omega

lemma append_lt_append_left (p x y : Bytes) : p ++ x < p ++ y ↔ x < y := by
  induction p with
  | nil => rfl
  | cons b p ih => simp [ih]

lemma encodeChar_ne_nil (c : Char) : encodeChar c ≠ [] := by
  unfold encodeChar
  dsimp only
  split_ifs <;> simp

lemma encode_lt_encode {cs ds : List Char} (h : cs < ds) : encode cs < encode ds := by
  induction cs generalizing ds with
  | nil =>
    cases ds with
    | nil => cases h
    | cons d ds =>
      obtain ⟨b, bs, hb⟩ := List.exists_cons_of_ne_nil (encodeChar_ne_nil d)
      simp [encode, hb]
  | cons c cs ih =>
    cases ds with
    | nil => cases h
    | cons d ds =>
      rcases List.cons_lt_cons_iff.1 h with hcd | ⟨rfl, htail⟩
      · exact encodeChar_lt hcd _ _
      · exact (append_lt_append_left _ _ _).2 (ih htail)

theorem ofString_lt_ofString_iff {a b : String} : ofString a < ofString b ↔ a < b := by
  constructor
  · intro h
    rcases lt_trichotomy a b with hab | rfl | hba
    · exact hab
    · exact absurd h (List.lt_irrefl _)
    · exact absurd h (List.lt_asymm (encode_lt_encode (String.lt_iff_toList_lt.1 hba)))
  · intro h
    exact encode_lt_encode (String.lt_iff_toList_lt.1 h)

end Order

end CorridorTrust.Utf8
