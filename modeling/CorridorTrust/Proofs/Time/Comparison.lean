import CorridorTrust.Fault
import CorridorTrust.Proofs.Time.Chronology

/-!
Written instants compared as texts. With nine digits for the fraction the texts of a year of four digits
have every part at its place, most weight first, so that their order is that of the instants. A text of
another year begins with a sign and is not read at all.
-/

namespace CorridorTrust.Time

section Digits

variable {width m n : ℕ} {r s : List Char}

open Instant (padded)

lemma digitChar_lt_iff (hm : m < 10) (hn : n < 10) : Nat.digitChar m < Nat.digitChar n ↔ m < n := by
  have hall : ∀ m < 10, ∀ n < 10, Nat.digitChar m < Nat.digitChar n ↔ m < n := by decide
  exact hall m hm n hn

lemma digitChar_eq_iff (hm : m < 10) (hn : n < 10) : Nat.digitChar m = Nat.digitChar n ↔ m = n := by
  have hall : ∀ m < 10, ∀ n < 10, Nat.digitChar m = Nat.digitChar n ↔ m = n := by decide
  exact hall m hm n hn

lemma padded_append_lt_iff (hm : m < 10 ^ width) (hn : n < 10 ^ width) :
    padded width m ++ r < padded width n ++ s ↔ m < n ∨ m = n ∧ r < s := by
  induction width generalizing m n r s with
  | zero =>
    obtain rfl : m = 0 := by simpa using hm
    obtain rfl : n = 0 := by simpa using hn
    simp [padded]
  | succ width ih =>
    rw [pow_succ] at hm hn
    have hm' : m % 10 < 10 := Nat.mod_lt _ (by decide)
    have hn' : n % 10 < 10 := Nat.mod_lt _ (by decide)
    rw [padded, padded, List.append_assoc, List.append_assoc, ih (by omega) (by omega),
      List.singleton_append, List.singleton_append, List.cons_lt_cons_iff, digitChar_lt_iff hm' hn',
      digitChar_eq_iff hm' hn']
    constructor
    · rintro (h | ⟨h, h' | ⟨h', hrest⟩⟩)
      · exact .inl (by omega)
      · exact .inl (by omega)
      · exact .inr ⟨by omega, hrest⟩
    · rintro (h | ⟨rfl, hrest⟩)
      · omega
      · exact .inr ⟨rfl, .inr ⟨rfl, hrest⟩⟩

lemma padded_add (width count n : ℕ) :
    padded (width + count) (n * 10 ^ count) = padded width n ++ List.replicate count '0' := by
  induction count with
  | zero => simp
  | succ count ih =>
    have hdiv : n * 10 ^ (count + 1) / 10 = n * 10 ^ count := by
      rw [pow_succ, ← Nat.mul_assoc, Nat.mul_div_cancel _ (by decide)]
    have hmod : n * 10 ^ (count + 1) % 10 = 0 := by
      rw [pow_succ, ← Nat.mul_assoc, Nat.mul_mod_left]
    rw [← Nat.add_assoc, padded, hdiv, hmod, ih, List.append_assoc, List.replicate_succ']
    rfl

end Digits

namespace Instant

variable {t u : Instant}

def widened (s : String) : String :=
  let digits := (s.toList.drop 20).takeWhile Char.isDigit
  String.ofList (s.toList.take 19 ++ '.' :: (digits ++ List.replicate 9 '0').take 9 ++ ['Z'])

lemma takeWhile_writeFraction {n : ℕ} (h : n < 10 ^ 9) :
    ((((writeFraction n ++ ['Z']).drop 1).takeWhile Char.isDigit) ++ List.replicate 9 '0').take 9 =
      padded 9 n := by
  have hshort {width k : ℕ} (hwidth : width ≤ 9) (hk : k * 10 ^ (9 - width) = n) :
      ((('.' :: padded width k ++ ['Z']).drop 1).takeWhile Char.isDigit ++
        List.replicate 9 '0').take 9 = padded 9 n := by
    have hdigits : (padded width k ++ ['Z']).takeWhile Char.isDigit = padded width k :=
      takeWhile_digits (fun c hc => isDigit_of_mem_padded hc) rfl []
    rw [List.cons_append, List.drop_one, List.tail_cons, hdigits, List.take_append, length_padded,
      List.take_of_length_le (by simpa using hwidth), List.take_replicate,
      Nat.min_eq_left (Nat.sub_le 9 width), ← padded_add, Nat.add_sub_cancel' hwidth, hk]
  rw [writeFraction]
  split_ifs with hzero hthree hsix
  · subst hzero
    rfl
  · exact hshort (by decide) (by omega)
  · exact hshort (by decide) (by omega)
  · exact hshort (by decide) (by omega)

lemma widened_toText (h : t.InYears) : (widened t.toText).toList =
    Timestamp.clockChars (Date.ofDays (t.seconds / 86400)).year.natAbs
        (Date.ofDays (t.seconds / 86400)).month (Date.ofDays (t.seconds / 86400)).day
        ((t.seconds % 86400).toNat / 3600) ((t.seconds % 86400).toNat / 60 % 60)
        ((t.seconds % 86400).toNat % 60 + t.nanos / 1000000000) ++
      '.' :: (padded 9 (t.nanos % 1000000000) ++ ['Z']) := by
  have hnanos : t.nanos % 1000000000 < 10 ^ 9 := Nat.mod_lt _ (by decide)
  rw [widened, String.toList_ofList, toText, String.toList_ofList, write_eq h]
  generalize hfront : Timestamp.clockChars _ _ _ _ _ _ = front
  have hlength : front.length = 19 := by rw [← hfront, Timestamp.length_clockChars]
  have hdrop : (front ++ (writeFraction (t.nanos % 1000000000) ++ ['Z'])).drop 20 =
      (writeFraction (t.nanos % 1000000000) ++ ['Z']).drop 1 := by
    rw [show 20 = front.length + 1 by rw [hlength], List.drop_append]
    simp
  rw [hdrop, takeWhile_writeFraction hnanos, List.take_left' hlength, List.append_assoc, List.cons_append]

lemma clockChars_lt_iff {y y' month month' day day' hour hour' minute minute' second second' n n' : ℕ}
    (hy : y < 10000 ∧ y' < 10000) (hmonth : month < 100 ∧ month' < 100) (hday : day < 100 ∧ day' < 100)
    (hhour : hour < 100 ∧ hour' < 100) (hminute : minute < 100 ∧ minute' < 100)
    (hsecond : second < 100 ∧ second' < 100) (hn : n < 10 ^ 9 ∧ n' < 10 ^ 9) :
    Timestamp.clockChars y month day hour minute second ++ '.' :: (padded 9 n ++ ['Z']) <
        Timestamp.clockChars y' month' day' hour' minute' second' ++ '.' :: (padded 9 n' ++ ['Z']) ↔
      y < y' ∨ y = y' ∧ (month < month' ∨ month = month' ∧ (day < day' ∨ day = day' ∧
        (hour < hour' ∨ hour = hour' ∧ (minute < minute' ∨ minute = minute' ∧
          (second < second' ∨ second = second' ∧ n < n'))))) := by
  have hmark {c : Char} {r s : List Char} : c :: r < c :: s ↔ r < s := by simp
  simp only [Timestamp.clockChars, List.append_assoc, List.cons_append]
  rw [padded_append_lt_iff hy.1 hy.2, hmark, padded_append_lt_iff hmonth.1 hmonth.2, hmark,
    padded_append_lt_iff hday.1 hday.2, hmark, padded_append_lt_iff hhour.1 hhour.2, hmark,
    padded_append_lt_iff hminute.1 hminute.2, hmark, padded_append_lt_iff hsecond.1 hsecond.2, hmark,
    padded_append_lt_iff hn.1 hn.2]
  simp

lemma before_iff : t.before u = true ↔
    t.seconds < u.seconds ∨ t.seconds = u.seconds ∧ t.nanos < u.nanos := by
  simp [before]

lemma clock_lt_iff {a b m n : ℕ} (hm : m < 2 * 10 ^ 9) (hn : n < 2 * 10 ^ 9)
    (hmleap : 10 ^ 9 ≤ m → a % 60 = 59) (hnleap : 10 ^ 9 ≤ n → b % 60 = 59) :
    (a / 3600 < b / 3600 ∨ a / 3600 = b / 3600 ∧ (a / 60 % 60 < b / 60 % 60 ∨ a / 60 % 60 = b / 60 % 60 ∧
      (a % 60 + m / 1000000000 < b % 60 + n / 1000000000 ∨
        a % 60 + m / 1000000000 = b % 60 + n / 1000000000 ∧ m % 1000000000 < n % 1000000000))) ↔
      a < b ∨ a = b ∧ m < n := by
  omega

theorem widened_lt_iff (ht : t.IsProper) (hu : u.IsProper) (hty : t.InYears) (huy : u.InYears) :
    widened t.toText < widened u.toText ↔ t.before u = true := by
  have htnanos := ht.nanos_lt
  have hunanos := hu.nanos_lt
  have htleap : 10 ^ 9 ≤ t.nanos → (t.seconds % 86400).toNat % 60 = 59 := fun h => by
    have hsecond := ht.leap h
    omega
  have huleap : 10 ^ 9 ≤ u.nanos → (u.seconds % 86400).toNat % 60 = 59 := fun h => by
    have hsecond := hu.leap h
    omega
  obtain ⟨htlow, hthigh⟩ := hty
  obtain ⟨hulow, huhigh⟩ := huy
  have htdate := date_lt (t.seconds / 86400)
  have hudate := date_lt (u.seconds / 86400)
  have hdays := Date.ofDays_before_iff (m := t.seconds / 86400) (n := u.seconds / 86400)
  have hsame : Date.ofDays (t.seconds / 86400) = Date.ofDays (u.seconds / 86400) ↔
      t.seconds / 86400 = u.seconds / 86400 := Date.ofDays_injective.eq_iff
  rw [String.lt_iff_toList_lt, widened_toText ⟨htlow, hthigh⟩, widened_toText ⟨hulow, huhigh⟩]
  generalize Date.ofDays (t.seconds / 86400) = d at *
  generalize Date.ofDays (u.seconds / 86400) = e at *
  obtain ⟨year, month, day⟩ := d
  obtain ⟨year', month', day'⟩ := e
  dsimp only at *
  rw [clockChars_lt_iff (by omega) (by omega) (by omega) (by omega) (by omega) (by omega) (by omega),
    clock_lt_iff htnanos hunanos htleap huleap, before_iff]
  simp only [Date.Before, Date.mk.injEq] at hdays hsame
  clear htleap huleap
  omega

lemma four_le_length_yearDigits (n : ℕ) : 4 ≤ (yearDigits n).length := by
  rw [yearDigits]
  split_ifs with h
  · simp
  · by_contra hshort
    have hlt := Timestamp.ofDigitChars_lt
      (fun c hc => Nat.isDigit_of_mem_toDigits (by decide) (by decide) hc : ∀ c ∈ Nat.toDigits 10 n, _) 0
    have hpow : 10 ^ (Nat.toDigits 10 n).length ≤ 10 ^ 3 := Nat.pow_le_pow_right (by decide) (by omega)
    rw [Nat.ofDigitChars_toDigits (by decide) (by decide)] at hlt
    omega

lemma exists_sign (h : ¬t.InYears) : ∃ c rest, t.write = c :: rest ∧ (c = '-' ∨ c = '+') ∧
    19 ≤ t.write.length := by
  have hdigits := four_le_length_yearDigits (Date.ofDays (t.seconds / 86400)).year.natAbs
  have hsign : yearSign (Date.ofDays (t.seconds / 86400)).year = ['-'] ∨
      yearSign (Date.ofDays (t.seconds / 86400)).year = ['+'] := by
    unfold yearSign
    split_ifs with hneg hlt
    · exact .inl rfl
    · exact absurd ⟨not_lt.1 hneg, hlt⟩ h
    · exact .inr rfl
  rw [write, writeYear_eq]
  rcases hsign with hsign | hsign
  · rw [hsign]
    refine ⟨'-', _, rfl, .inl rfl, ?_⟩
    simp
    omega
  · rw [hsign]
    refine ⟨'+', _, rfl, .inr rfl, ?_⟩
    simp
    omega

end Instant

namespace Timestamp

lemma readClock_of_sign {c : Char} {cs : List Char} (h : digit c = .error .invalid) :
    readClock (c :: cs) = .error .invalid := by
  unfold readClock
  split
  next heq =>
    obtain ⟨rfl, -⟩ := List.cons.inj heq
    rw [twoDigits, h]
    rfl
  next => rfl

theorem read_toText_of_not_inYears {t : Instant} (h : ¬t.InYears) : read t.toText = .error .invalid := by
  -- the year is written with a sign, where a digit has to be
  obtain ⟨c, rest, hwrite, hc, hlength⟩ := Instant.exists_sign h
  have htrim := congrArg String.toList t.isBare_toText.trim_eq
  rw [Text.trim, String.toList_ofList, Instant.toText, String.toList_ofList] at htrim
  have hdigit : digit c = .error .invalid := by rcases hc with rfl | rfl <;> rfl
  have hlong : 19 ≤ (Utf8.encode t.write).length := hlength.trans (length_le_encode _)
  rw [read, Instant.toText, String.toList_ofList, htrim, readChars]
  simp only [ensure, hlong, decide_true, if_true, Sequence.ok_bind]
  rw [hwrite, List.cons_append, List.take_succ_cons, readClock_of_sign hdigit]
  rfl

end Timestamp

namespace Instant

variable {t u : Instant}

lemma parse_eq_ok_iff {s : String} : parse s = .ok t ↔ Timestamp.read s = .ok t := by
  rw [parse]
  cases Timestamp.read s <;> simp

lemma eq_of_not_before (h : t.before u = false) (h' : u.before t = false) : t = u := by
  obtain ⟨seconds, nanos⟩ := t
  obtain ⟨seconds', nanos'⟩ := u
  simp only [Bool.eq_false_iff, ne_eq, before_iff, mk.injEq] at *
  omega

/-- What was parsed is parsed again from its written form when its year has four digits; otherwise its date
is one of the two next to these years, and its written form is refused. Different instants are written
differently, and in the years of four digits their order is that of their texts with nine digits for the
fraction. -/
theorem parse_toText {v w : String} {t u : Instant} (ht : parse v = .ok t) (hu : parse w = .ok u) :
    (t.InYears → parse t.toText = .ok t) ∧
      (¬t.InYears → ((Date.ofDays (t.seconds / 86400)).year = -1 ∨
          (Date.ofDays (t.seconds / 86400)).year = 10000) ∧
        parse t.toText = .error (.invalidTimestamp t.toText .invalid)) ∧
      (t.toText = u.toText → t = u) ∧
      (t.InYears → u.InYears →
        ((t.seconds < u.seconds ∨ t.seconds = u.seconds ∧ t.nanos < u.nanos) ↔
            widened t.toText < widened u.toText) ∧
          (t = u ↔ widened t.toText = widened u.toText)) := by
  have htproper := isProper_of_parse ht
  have huproper := isProper_of_parse hu
  refine ⟨fun hyears => ?_, fun hyears => ⟨?_, ?_⟩, eq_of_toText_eq htproper huproper,
    fun htyears huyears => ⟨?_, ?_⟩⟩
  · exact parse_eq_ok_iff.2 (read_toText htproper hyears)
  · rcases (Timestamp.inYears_of_read (parse_eq_ok_iff.1 ht)).resolve_left hyears with heve | hmorrow
    · exact .inl (congrArg Date.year heve)
    · exact .inr (congrArg Date.year hmorrow)
  · rw [parse, Timestamp.read_toText_of_not_inYears hyears]
  · rw [widened_lt_iff htproper huproper htyears huyears, before_iff]
  · refine ⟨fun h => h ▸ rfl, fun h => eq_of_not_before ?_ ?_⟩
    · rw [Bool.eq_false_iff, ne_eq, ← widened_lt_iff htproper huproper htyears huyears, h]
      exact lt_irrefl _
    · rw [Bool.eq_false_iff, ne_eq, ← widened_lt_iff huproper htproper huyears htyears, h]
      exact lt_irrefl _

theorem leap_second_compared :
    parse "2016-12-31T23:59:60.500Z" = .ok ⟨1483228799, 1500000000⟩ ∧
      widened "2016-12-31T23:59:59.999999999Z" < widened "2016-12-31T23:59:60.500Z" ∧
      parse "0000-01-01T00:30:00+01:00" = .ok ⟨-62167221000, 0⟩ ∧
      parse "-0001-12-31T23:30:00Z" = .error (.invalidTimestamp "-0001-12-31T23:30:00Z" .invalid) := by
  have hlast : parse "2016-12-31t23:59:59.9999999998-00:00" = .ok ⟨1483228799, 999999999⟩ := by decide
  have hleap : parse "2017-01-01T00:59:60.5+01:00" = .ok ⟨1483228799, 1500000000⟩ := by decide
  have heve : parse "0000-01-01T00:30:00+01:00" = .ok ⟨-62167221000, 0⟩ := by decide
  obtain ⟨hread, -⟩ := parse_toText hleap hlast
  obtain ⟨-, -, -, horder⟩ := parse_toText hlast hleap
  obtain ⟨-, hrefused, -⟩ := parse_toText heve hleap
  refine ⟨hread ⟨by decide, by decide⟩, ?_, heve, (hrefused fun h => ?_).2⟩
  · exact ((horder ⟨by decide, by decide⟩ ⟨by decide, by decide⟩).1).1 (.inr ⟨rfl, by decide⟩)
  · exact absurd h.nonneg (by decide)

end Instant

end CorridorTrust.Time
