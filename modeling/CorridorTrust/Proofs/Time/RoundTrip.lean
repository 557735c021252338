import CorridorTrust.Proofs.Text.Parts
import CorridorTrust.Proofs.Text.Utf8
import CorridorTrust.Proofs.Time.Timestamp

namespace CorridorTrust.Time

open Sequence

namespace Timestamp

open Instant (padded)

variable {n : ℕ}

lemma digit_digitChar (h : n < 10) : digit (Nat.digitChar n) = .ok n := by
  have hall : ∀ n < 10, digit (Nat.digitChar n) = .ok n := by decide
  exact hall n h

lemma padded_two (n : ℕ) : padded 2 n = [Nat.digitChar (n / 10 % 10), Nat.digitChar (n % 10)] := rfl

lemma padded_four (n : ℕ) : padded 4 n = padded 2 (n / 100) ++ padded 2 n := by
  simp [padded, Nat.div_div_eq_div_mul]

lemma twoDigits_padded (n : ℕ) :
    twoDigits (Nat.digitChar (n / 10 % 10)) (Nat.digitChar (n % 10)) = .ok (n % 100) := by
  have hvalue : 10 * (n / 10 % 10) + n % 10 = n % 100 := by omega
  rw [twoDigits, digit_digitChar (Nat.mod_lt _ (by decide)), ok_bind,
    digit_digitChar (Nat.mod_lt _ (by decide)), ok_bind, hvalue]
  rfl

def clockChars (year month day hour minute second : ℕ) : List Char :=
  padded 4 year ++ '-' :: padded 2 month ++ '-' :: padded 2 day ++ 'T' :: padded 2 hour ++
    ':' :: padded 2 minute ++ ':' :: padded 2 second

lemma length_clockChars (year month day hour minute second : ℕ) :
    (clockChars year month day hour minute second).length = 19 := by
  simp [clockChars]

lemma readClock_clockChars {year month day hour minute second : ℕ} (hyear : year < 10000)
    (hmonth : month < 100) (hday : day < 100) (hhour : hour < 100) (hminute : minute < 100)
    (hsecond : second < 100) (hdate : Date.isValid ⟨year, month, day⟩ = true) :
    readClock (clockChars year month day hour minute second) =
      .ok ⟨Date.toDays ⟨year, month, day⟩, hour, minute, second⟩ := by
  have hjoined : 100 * (year / 100 % 100) + year % 100 = year := by omega
  simp only [clockChars, padded_four, padded_two, List.cons_append, List.nil_append, readClock,
    twoDigits_padded, ok_bind, Nat.mod_eq_of_lt hmonth, Nat.mod_eq_of_lt hday, Nat.mod_eq_of_lt hhour,
    Nat.mod_eq_of_lt hminute, Nat.mod_eq_of_lt hsecond, hjoined]
  have hdash : expect ['-'] '-' = .ok () := rfl
  have hcolon : expect [':'] ':' = .ok () := rfl
  have hletter : expect ['T', 't', ' '] 'T' = .ok () := rfl
  simp only [hdash, hcolon, hletter, ok_bind, hdate, ensure, if_true]
  rfl

lemma length_le_encode (cs : List Char) : cs.length ≤ (Utf8.encode cs).length := by
  induction cs with
  | nil => rfl
  | cons c cs ih =>
    have hpos : 0 < (Utf8.encodeChar c).length := List.length_pos_of_ne_nil (Utf8.encodeChar_ne_nil c)
    rw [Utf8.encode, List.flatMap_cons, List.length_append, List.length_cons]
    rw [Utf8.encode] at ih
    omega

lemma readChars_clockChars {year month day hour minute second nanos : ℕ} (hyear : year < 10000)
    (hmonth : month < 100) (hday : day < 100) (hhour : hour < 24) (hminute : minute < 60)
    (hsecond : second ≤ 60) (hdate : Date.isValid ⟨year, month, day⟩ = true) (hnanos : nanos < 10 ^ 9) :
    readChars (clockChars year month day hour minute second ++ (Instant.writeFraction nanos ++ ['Z'])) =
      .ok (instant ⟨Date.toDays ⟨year, month, day⟩, hour, minute, second⟩ nanos 0) := by
  have hlength := length_clockChars year month day hour minute second
  have hclock := readClock_clockChars hyear hmonth hday (by omega : hour < 100) (by omega : minute < 100)
    (by omega : second < 100) hdate
  generalize clockChars year month day hour minute second = front at hlength hclock
  have hlong : 19 ≤ (Utf8.encode (front ++ (Instant.writeFraction nanos ++ ['Z']))).length := by
    refine le_trans ?_ (length_le_encode _)
    rw [List.length_append]
    omega
  have htake : ((front ++ (Instant.writeFraction nanos ++ ['Z'])) ++ List.replicate 19 '\x00').take 19 =
      front := by
    rw [List.append_assoc, ← hlength, List.take_left]
  have hdrop : (front ++ (Instant.writeFraction nanos ++ ['Z'])).drop 19 =
      Instant.writeFraction nanos ++ ['Z'] := by
    rw [← hlength, List.drop_left]
  have hvalid : Clock.isValid ⟨Date.toDays ⟨year, month, day⟩, hour, minute, second⟩ = true := by
    simp [Clock.isValid, hhour, hminute, hsecond]
  rw [readChars, htake, hclock, hdrop, Instant.readFraction_writeFraction hnanos]
  simp only [ensure, hlong, hvalid, decide_true, if_true, ok_bind]
  rfl

end Timestamp

namespace Instant

variable {t : Instant}

structure InYears (t : Instant) : Prop where
  nonneg : 0 ≤ (Date.ofDays (t.seconds / 86400)).year
  lt : (Date.ofDays (t.seconds / 86400)).year < 10000

lemma writeYear_of_nonneg {y : ℤ} (hnonneg : 0 ≤ y) (hlt : y < 10000) :
    writeYear y = padded 4 y.natAbs := by
  have habs : y.natAbs < 10000 := by omega
  rw [writeYear]
  simp only [habs, if_true, if_neg hnonneg.not_gt, hlt]

lemma write_eq (h : t.InYears) : t.write =
    Timestamp.clockChars (Date.ofDays (t.seconds / 86400)).year.natAbs
        (Date.ofDays (t.seconds / 86400)).month (Date.ofDays (t.seconds / 86400)).day
        ((t.seconds % 86400).toNat / 3600) ((t.seconds % 86400).toNat / 60 % 60)
        ((t.seconds % 86400).toNat % 60 + t.nanos / 1000000000) ++
      (writeFraction (t.nanos % 1000000000) ++ ['Z']) := by
  simp only [write, writeYear_of_nonneg h.nonneg h.lt, Timestamp.clockChars, List.append_assoc,
    List.cons_append]

lemma readChars_write (ht : t.IsProper) (h : t.InYears) : Timestamp.readChars t.write = .ok t := by
  have hnanos := ht.nanos_lt
  have hleap := ht.leap
  obtain ⟨hnonneg, hlt⟩ := h
  have hvalid := Date.isValid_ofDays (t.seconds / 86400)
  have hdays := Date.toDays_ofDays (t.seconds / 86400)
  obtain ⟨hmonth, hday⟩ := date_lt (t.seconds / 86400)
  rw [write_eq ⟨hnonneg, hlt⟩]
  generalize Date.ofDays (t.seconds / 86400) = d at hnonneg hlt hvalid hdays hmonth hday
  obtain ⟨year, month, day⟩ := d
  have hyear : (year.natAbs : ℤ) = year := Int.natAbs_of_nonneg hnonneg
  dsimp only at hlt hmonth hday ⊢
  rw [← hyear] at hvalid hdays
  rw [Timestamp.readChars_clockChars (by omega) hmonth hday (by omega) (by omega) (by omega) hvalid
    (by omega), hdays]
  have hseconds : 3600 * ((t.seconds % 86400).toNat / 3600) + 60 * ((t.seconds % 86400).toNat / 60 % 60) +
      min ((t.seconds % 86400).toNat % 60 + t.nanos / 1000000000) 59 = (t.seconds % 86400).toNat := by
    omega
  have hfraction : t.nanos % 1000000000 +
      (if (t.seconds % 86400).toNat % 60 + t.nanos / 1000000000 = 60 then 1000000000 else 0) = t.nanos := by
    split_ifs <;> omega
  obtain ⟨seconds, nanos⟩ := t
  rw [Timestamp.instant, hseconds, hfraction]
  congr 2
  dsimp only
  omega

lemma isBlank_of_isDigit {c : Char} (h : c.isDigit = true) : Text.isBlank c = false := by
  have hc : 48 ≤ c.toNat ∧ c.toNat ≤ 57 := by simpa [Char.isDigit, UInt32.le_iff_toNat_le] using h
  have hother : c.toNat ∉ [0x20, 0x85, 0xA0, 0x1680, 0x2028, 0x2029, 0x202F, 0x205F, 0x3000] := by
    simp only [List.mem_cons, List.not_mem_nil, or_false]
    omega
  rw [Text.isBlank, List.contains_eq_mem, decide_eq_false hother, Bool.or_false]
  simp only [Bool.or_eq_false_iff, Bool.and_eq_false_iff, decide_eq_false_iff_not]
  omega

lemma isBlank_of_mem_writeYear {y : ℤ} {c : Char} (h : c ∈ writeYear y) : Text.isBlank c = false := by
  rw [writeYear_eq] at h
  rcases List.mem_append.1 h with h | h
  · rw [yearSign] at h
    split_ifs at h
    · obtain rfl := List.mem_singleton.1 h
      rfl
    · cases h
    · obtain rfl := List.mem_singleton.1 h
      rfl
  · exact isBlank_of_isDigit (isDigit_of_mem_yearDigits h)

lemma isBare_toText (t : Instant) : Text.IsBare t.toText := by
  have hlist : t.toText.toList = t.write := by rw [toText, String.toList_ofList]
  refine ⟨t.toText_ne_empty, fun c hc => ?_, fun c hc => ?_⟩
  · have hyear : writeYear (Date.ofDays (t.seconds / 86400)).year ≠ [] := by
      rw [writeYear_eq]
      exact List.append_ne_nil_of_right_ne_nil _ (yearDigits_ne_nil _)
    simp only [hlist, write, List.append_assoc, List.cons_append] at hc
    rw [List.head?_append_of_ne_nil _ hyear] at hc
    exact isBlank_of_mem_writeYear (List.mem_of_mem_head? hc)
  · rw [hlist, write, List.getLast?_concat] at hc
    obtain rfl := Option.some.inj hc
    rfl

theorem read_toText (ht : t.IsProper) (h : t.InYears) : Timestamp.read t.toText = .ok t := by
  have htrim := congrArg String.toList t.isBare_toText.trim_eq
  rw [Text.trim, String.toList_ofList, toText, String.toList_ofList] at htrim
  rw [Timestamp.read, toText, String.toList_ofList, htrim, readChars_write ht h]

end Instant

end CorridorTrust.Time
