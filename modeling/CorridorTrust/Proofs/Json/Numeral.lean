import CorridorTrust.Json.Token
import CorridorTrust.Proofs.Decimal.Shortest

namespace CorridorTrust.Json

open Decimal

namespace Numeral

structure IsProper (n : Numeral) : Prop where
  ne_nil : n.whole ≠ []
  whole : ∀ d ∈ n.whole, d < 10
  leading : n.whole.head? = some 0 → n.whole.length = 1
  fraction : ∀ d ∈ n.fraction, d < 10

lemma isDigit_charOf {d : ℕ} (h : d < 10) : (charOf d).isDigit = true := by
  interval_cases d <;> decide

lemma digitOf_charOf {d : ℕ} (h : d < 10) : digitOf (charOf d) = d := by
  interval_cases d <;> decide

lemma isDigit_of_mem_writeDigits {ds : List ℕ} (h : ∀ d ∈ ds, d < 10) {c : Char}
    (hc : c ∈ writeDigits ds) : c.isDigit = true := by
  obtain ⟨d, hd, rfl⟩ := List.mem_map.1 hc
  exact isDigit_charOf (h d hd)

lemma readDigits_writeDigits {ds : List ℕ} (h : ∀ d ∈ ds, d < 10) {rest : List Char}
    (hrest : ∀ c, rest.head? = some c → c.isDigit = false) :
    readDigits (writeDigits ds ++ rest) = (ds, rest) := by
  have hdigits : ∀ c ∈ writeDigits ds, c.isDigit = true := fun c hc => isDigit_of_mem_writeDigits h hc
  have htake : rest.takeWhile Char.isDigit = [] := by
    cases rest with
    | nil => rfl
    | cons c cs => rw [List.takeWhile_cons_of_neg (by simp [hrest c rfl])]
  have hdrop : rest.dropWhile Char.isDigit = rest := by
    cases rest with
    | nil => rfl
    | cons c cs => rw [List.dropWhile_cons_of_neg (by simp [hrest c rfl])]
  have hback : (writeDigits ds).map digitOf = ds := by
    rw [writeDigits, List.map_map]
    exact (List.map_congr_left fun d hd => digitOf_charOf (h d hd)).trans (List.map_id ds)
  rw [readDigits, List.takeWhile_append_of_pos hdigits, List.dropWhile_append_of_pos hdigits, htake,
    hdrop, List.append_nil, hback]

def writePower : Option ℤ → List Char
  | none => []
  | some k => 'e' :: (if k < 0 then '-' else '+') :: writeDigits (digits k.natAbs)

lemma readPower_writePower (k : Option ℤ) : readPower (writePower k) = some k := by
  cases k with
  | none => rfl
  | some k =>
    have hdigits : readDigits (writeDigits (digits k.natAbs) ++ []) = (digits k.natAbs, []) :=
      readDigits_writeDigits (fun d hd => lt_ten_of_mem_digits hd) (by simp)
    rw [List.append_nil] at hdigits
    have hvalue := ofDigits_digits k.natAbs
    obtain ⟨d, ds, hds⟩ := List.exists_cons_of_ne_nil (digits_ne_nil k.natAbs)
    rw [hds] at hdigits hvalue
    unfold writePower readPower
    by_cases hk : k < 0
    · simp only [if_pos hk, hds, hdigits, hvalue, true_or, if_true]
      congr 2
      omega
    · simp only [if_neg hk, hds, hdigits, hvalue, true_or, if_true, Bool.false_eq_true, if_false]
      congr 2
      omega

def writeRest (n : Numeral) : List Char :=
  (if n.fraction = [] then [] else '.' :: writeDigits n.fraction) ++ writePower n.power

lemma write_eq (n : Numeral) : n.write =
    (if n.negative then ['-'] else []) ++ (writeDigits n.whole ++ n.writeRest) := by
  obtain ⟨negative, whole, fraction, power⟩ := n
  cases power <;> simp [write, writeRest, writePower]

lemma head?_writePower {k : Option ℤ} {c : Char} (h : (writePower k).head? = some c) : c = 'e' := by
  cases k with
  | none => cases h
  | some k => simpa [writePower, eq_comm] using h

lemma head?_writeRest {n : Numeral} {c : Char} (h : n.writeRest.head? = some c) :
    c = '.' ∨ c = 'e' := by
  rw [writeRest] at h
  split_ifs at h
  · exact .inr (head?_writePower h)
  · exact .inl (by simpa [eq_comm] using h)

lemma readFraction_writeRest {n : Numeral} (h : ∀ d ∈ n.fraction, d < 10) :
    readFraction n.writeRest = some (n.fraction, writePower n.power) := by
  rw [writeRest]
  split_ifs with hf
  · rw [List.nil_append, hf]
    cases hp : n.power <;> rfl
  · have hdigits : readDigits (writeDigits n.fraction ++ writePower n.power) =
        (n.fraction, writePower n.power) := by
      refine readDigits_writeDigits h fun c hc => ?_
      rw [head?_writePower hc]
      decide
    obtain ⟨d, ds, hds⟩ := List.exists_cons_of_ne_nil hf
    rw [hds] at hdigits
    rw [List.cons_append, hds]
    simp only [readFraction, hdigits]

lemma readSign_write (n : Numeral) (h : n.IsProper) :
    readSign n.write = (n.negative, writeDigits n.whole ++ n.writeRest) := by
  rw [write_eq]
  cases n.negative with
  | true => rfl
  | false =>
    obtain ⟨d, ds, hds⟩ := List.exists_cons_of_ne_nil h.ne_nil
    have hd := isDigit_charOf (h.whole d (by simp [hds]))
    rw [hds]
    simp only [writeDigits, List.map_cons, List.cons_append, Bool.false_eq_true, if_false,
      List.nil_append]
    unfold readSign
    split
    next hc =>
      obtain ⟨hc, -⟩ := List.cons.inj hc
      rw [hc] at hd
      exact absurd hd (by decide)
    next => rfl

theorem read?_write {n : Numeral} (h : n.IsProper) : read? n.write = some n := by
  have hwhole : readDigits (writeDigits n.whole ++ n.writeRest) = (n.whole, n.writeRest) := by
    refine readDigits_writeDigits h.whole fun c hc => ?_
    rcases head?_writeRest hc with rfl | rfl <;> decide
  have hleading : ¬(n.whole = [] ∨ (n.whole.head? = some 0 ∧ n.whole.length ≠ 1)) := by
    rintro (hnil | ⟨hzero, hlength⟩)
    · exact h.ne_nil hnil
    · exact hlength (h.leading hzero)
  simp only [read?, readSign_write n h, hwhole, if_neg hleading, readFraction_writeRest h.fraction,
    readPower_writePower, Option.bind_eq_bind, Option.bind_some]

lemma isNumeralChar_of_mem_digits {ds : List ℕ} (h : ∀ d ∈ ds, d < 10) {c : Char}
    (hc : c ∈ writeDigits ds) : Token.isNumeralChar c = true := by
  rw [Token.isNumeralChar, isDigit_of_mem_writeDigits h hc, Bool.true_or]

lemma isNumeralChar_of_mem_write {n : Numeral} (h : n.IsProper) {c : Char} (hc : c ∈ n.write) :
    Token.isNumeralChar c = true := by
  rw [write_eq, writeRest] at hc
  simp only [List.mem_append] at hc
  rcases hc with hc | hc | hc | hc
  · split_ifs at hc
    · obtain rfl : c = '-' := by simpa using hc
      decide
    · cases hc
  · exact isNumeralChar_of_mem_digits h.whole hc
  · split_ifs at hc
    · cases hc
    · rcases List.mem_cons.1 hc with rfl | hc
      · decide
      · exact isNumeralChar_of_mem_digits h.fraction hc
  · cases hp : n.power with
    | none =>
      rw [hp] at hc
      cases hc
    | some k =>
      rw [hp, writePower, List.mem_cons, List.mem_cons] at hc
      rcases hc with rfl | rfl | hc
      · decide
      · split_ifs <;> decide
      · exact isNumeralChar_of_mem_digits (fun d hd => lt_ten_of_mem_digits hd) hc

lemma write_ne_nil {n : Numeral} (h : n.IsProper) : n.write ≠ [] := by
  obtain ⟨d, ds, hds⟩ := List.exists_cons_of_ne_nil h.ne_nil
  rw [write_eq, hds]
  simp [writeDigits]

def size (n : Numeral) : ℚ :=
  ofDigits (n.whole ++ n.fraction) * 10 ^ (n.power.getD 0 - n.fraction.length)

end Numeral

namespace Number

def IsRegular : Number → Prop
  | .integer _ => True
  | .double x => x.IsRegular

section Double

variable {x y : Binary64}

lemma doubleNumeral_zero (h : x.significand = 0) :
    doubleNumeral x = ⟨x.negative, [0], [0], none⟩ := by
  simp [doubleNumeral, Binary64.isZero, h]

structure Shows (n : Numeral) (ds : List ℕ) (k : ℤ) : Prop where
  proper : n.IsProper
  double : n.fraction ≠ [] ∨ n.power ≠ none
  size : n.size = Binary64.digitValue ds k

section Shapes

variable {ds : List ℕ} {k : ℤ} (negative : Bool) (hne : ds ≠ []) (hlt : ∀ d ∈ ds, d < 10)

include hne hlt

lemma shows_far : Shows ⟨negative, ds.take 1, ds.drop 1, some k⟩ ds k where
  proper := by
    refine ⟨by simpa using hne, fun d hd => hlt d (List.mem_of_mem_take hd), fun _ => ?_,
      fun d hd => hlt d (List.mem_of_mem_drop hd)⟩
    rw [List.length_take_of_le (List.length_pos_iff.2 hne)]
  double := .inr (by simp)
  size := by
    have hlength : ((ds.length - 1 : ℕ) : ℤ) = ds.length - 1 :=
      Int.natCast_sub (List.length_pos_iff.2 hne)
    rw [Numeral.size, Binary64.digitValue, List.take_append_drop, List.length_drop, hlength,
      Option.getD_some]
    congr 2
    ring

lemma shows_small (hk : k < 0) :
    Shows ⟨negative, [0], List.replicate ((-k).toNat - 1) 0 ++ ds, none⟩ ds k where
  proper := by
    refine ⟨by simp, by simp, fun _ => rfl, fun d hd => ?_⟩
    rcases List.mem_append.1 hd with hd | hd
    · rw [List.eq_of_mem_replicate hd]
      decide
    · exact hlt d hd
  double := .inl (by simp [hne])
  size := by
    have hvalue : ofDigits ([0] ++ (List.replicate ((-k).toNat - 1) 0 ++ ds)) = ofDigits ds := by
      rw [ofDigits_append, ofDigits_append, ofDigits_replicate_zero, Nat.zero_mul, Nat.zero_add]
      exact (congrArg (· + _) (Nat.zero_mul _)).trans (Nat.zero_add _)
    rw [Numeral.size, Binary64.digitValue, hvalue, List.length_append, List.length_replicate,
      Option.getD_none]
    congr 2
    omega

variable (hhead : ds.head? ≠ some 0)

include hhead

lemma shows_whole (hk : 0 ≤ k) (h : ds.length ≤ k.toNat + 1) :
    Shows ⟨negative, ds ++ List.replicate (k.toNat + 1 - ds.length) 0, [0], none⟩ ds k where
  proper := by
    refine ⟨by simp [hne], fun d hd => ?_, fun hzero => ?_, by simp⟩
    · rcases List.mem_append.1 hd with hd | hd
      · exact hlt d hd
      · rw [List.eq_of_mem_replicate hd]
        decide
    · rw [List.head?_append_of_ne_nil _ hne] at hzero
      exact absurd hzero hhead
  double := .inl (by simp)
  size := by
    have hvalue : ofDigits (ds ++ List.replicate (k.toNat + 1 - ds.length) 0 ++ [0]) =
        ofDigits ds * 10 ^ (k.toNat + 1 - ds.length) * 10 := by
      rw [ofDigits_append, ofDigits_append, ofDigits_replicate_zero, List.length_replicate]
      rfl
    have hexp : k + 1 - ds.length = ((k.toNat + 1 - ds.length : ℕ) : ℤ) := by omega
    rw [Numeral.size, Binary64.digitValue, hvalue, hexp, zpow_natCast, Option.getD_none]
    simp

lemma shows_split (hk : 0 ≤ k) (h : k.toNat + 1 < ds.length) :
    Shows ⟨negative, ds.take (k.toNat + 1), ds.drop (k.toNat + 1), none⟩ ds k where
  proper := by
    refine ⟨by simpa using hne, fun d hd => hlt d (List.mem_of_mem_take hd), fun hzero => ?_,
      fun d hd => hlt d (List.mem_of_mem_drop hd)⟩
    rw [List.head?_take] at hzero
    exact absurd hzero hhead
  double := .inl (by simpa using h)
  size := by
    rw [Numeral.size, Binary64.digitValue, List.take_append_drop, List.length_drop, Option.getD_none]
    congr 2
    omega

end Shapes

lemma doubleNumeral_spec (hx : 0 < x.significand) (h : x.IsRegular) :
    Shows (doubleNumeral x) x.shortest.1 x.shortest.2 := by
  obtain ⟨hne, hlt, hhead, -⟩ := Binary64.shortest_spec h hx
  rw [doubleNumeral]
  rw [if_neg (by simp [Binary64.isZero, hx.ne'])]
  dsimp only
  split_ifs with hfar hsmall hwhole
  · exact shows_far _ hne hlt
  · exact shows_small _ hne hlt hsmall
  · exact shows_whole _ hne hlt hhead (not_lt.1 hsmall) hwhole
  · exact shows_split _ hne hlt hhead (not_lt.1 hsmall) (not_le.1 hwhole)

lemma size_doubleNumeral_pos (hx : 0 < x.significand) (h : x.IsRegular) :
    0 < (doubleNumeral x).size := by
  obtain ⟨-, -, -, hcovers⟩ := Binary64.shortest_spec h hx
  rw [(doubleNumeral_spec hx h).size]
  exact (Binary64.lower_pos hx).trans_le hcovers.bounds.1

lemma negative_doubleNumeral (x : Binary64) : (doubleNumeral x).negative = x.negative := by
  rw [doubleNumeral]
  dsimp only
  split_ifs <;> rfl

theorem eq_of_doubleNumeral_eq (hx : x.IsRegular) (hy : y.IsRegular)
    (h : doubleNumeral x = doubleNumeral y) : x = y := by
  have hnegative : x.negative = y.negative := by
    rw [← negative_doubleNumeral x, h, negative_doubleNumeral]
  have hzero (z : Binary64) (hz : z.significand = 0) : (doubleNumeral z).size = 0 := by
    rw [doubleNumeral_zero hz]
    simp [Numeral.size, ofDigits]
  have hrest : x.significand = y.significand ∧ x.exponent = y.exponent := by
    rcases Nat.eq_zero_or_pos x.significand with hx₀ | hx₀ <;>
      rcases Nat.eq_zero_or_pos y.significand with hy₀ | hy₀
    · refine ⟨hx₀.trans hy₀.symm, ?_⟩
      obtain ⟨-, hxe⟩ | ⟨hxm, -⟩ := hx
      · obtain ⟨-, hye⟩ | ⟨hym, -⟩ := hy
        · exact hxe.trans hye.symm
        · omega
      · omega
    · have hpos := size_doubleNumeral_pos hy₀ hy
      rw [← h, hzero x hx₀] at hpos
      exact absurd hpos (lt_irrefl _)
    · have hpos := size_doubleNumeral_pos hx₀ hx
      rw [h, hzero y hy₀] at hpos
      exact absurd hpos (lt_irrefl _)
    · obtain ⟨-, -, -, hxc⟩ := Binary64.shortest_spec hx hx₀
      obtain ⟨-, -, -, hyc⟩ := Binary64.shortest_spec hy hy₀
      rw [← (doubleNumeral_spec hx₀ hx).size, h] at hxc
      rw [← (doubleNumeral_spec hy₀ hy).size] at hyc
      exact Binary64.eq_of_covers hx hy hxc hyc
  obtain ⟨negative, m, e⟩ := x
  obtain ⟨rfl, rfl⟩ := hrest
  subst hnegative
  rfl

end Double

section Numbers

variable {m n : Number}

lemma isProper_numeral (h : n.IsRegular) : n.numeral.IsProper := by
  cases n with
  | integer n =>
    refine ⟨digits_ne_nil _, fun d hd => lt_ten_of_mem_digits hd, fun hzero => ?_, by simp [numeral]⟩
    by_cases hn : n.natAbs = 0
    · simp [numeral, hn, digits]
    · exact absurd hzero (head?_digits hn)
  | double x =>
    rcases Nat.eq_zero_or_pos x.significand with hx | hx
    · rw [numeral, doubleNumeral_zero hx]
      exact ⟨by simp, by simp, fun _ => rfl, by simp⟩
    · exact (doubleNumeral_spec hx h).proper

lemma integer_ne_double {i : ℤ} {x : Binary64} (h : x.IsRegular) :
    (integer i).numeral ≠ (double x).numeral := by
  intro he
  have hfraction : (doubleNumeral x).fraction = [] := (congrArg Numeral.fraction he).symm
  have hpower : (doubleNumeral x).power = none := (congrArg Numeral.power he).symm
  rcases Nat.eq_zero_or_pos x.significand with hx | hx
  · rw [doubleNumeral_zero hx] at hfraction
    cases hfraction
  · rcases (doubleNumeral_spec hx h).double with hn | hn
    · exact hn hfraction
    · exact hn hpower

theorem eq_of_numeral_eq (hm : m.IsRegular) (hn : n.IsRegular) (h : m.numeral = n.numeral) :
    m = n := by
  cases m with
  | integer i =>
    cases n with
    | integer j =>
      have hsign : decide (i < 0) = decide (j < 0) := congrArg Numeral.negative h
      have habs : i.natAbs = j.natAbs := digits_injective (congrArg Numeral.whole h)
      have hiff : i < 0 ↔ j < 0 := decide_eq_decide.1 hsign
      congr 1
      omega
    | double y => exact absurd h (integer_ne_double hn)
  | double x =>
    cases n with
    | integer j => exact absurd h.symm (integer_ne_double hm)
    | double y => exact congrArg double (eq_of_doubleNumeral_eq hm hn h)

lemma isRegular_of_number? {a : Numeral} (h : a.number? = some n) : n.IsRegular := by
  unfold Numeral.number? at h
  dsimp only at h
  split_ifs at h
  · obtain rfl : _ = n := by simpa using h
    trivial
  · obtain rfl : _ = n := by simpa using h
    trivial
  · obtain ⟨x, hx, rfl⟩ := Option.map_eq_some_iff.1 h
    obtain ⟨y, hy, rfl⟩ := Option.map_eq_some_iff.1 hx
    have hregular := Binary64.isRegular_of_ofDecimal hy
    change Binary64.IsRegular _
    split_ifs
    · exact hregular.neg
    · exact hregular

end Numbers

end Number

end CorridorTrust.Json
