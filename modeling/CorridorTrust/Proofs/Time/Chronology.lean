import CorridorTrust.Proofs.Time.RoundTrip

namespace CorridorTrust.Time

namespace Date

variable {d e : Date}

def Before (d e : Date) : Prop :=
  d.year < e.year ∨ d.year = e.year ∧ (d.month < e.month ∨ d.month = e.month ∧ d.day < e.day)

/-- The year that began in March, and the months and days of it that lie before the date. -/
def marchYear (d : Date) : ℤ := if d.month ≤ 2 then d.year - 1 else d.year

def marchIndex (d : Date) : ℕ := if d.month ≤ 2 then d.month + 9 else d.month - 3

def place (d : Date) : ℕ := monthStart d.marchIndex + d.day - 1

def yearStart (y : ℤ) : ℤ := 365 * y + y / 4 - y / 100 + y / 400

lemma toDays_eq (d : Date) : d.toDays = yearStart d.marchYear + d.place - epochShift := rfl

lemma yearStart_mono {y z : ℤ} (h : y ≤ z) : yearStart y ≤ yearStart z := by
  unfold yearStart
  omega

lemma isValid_iff : d.isValid = true ↔
    1 ≤ d.month ∧ d.month ≤ 12 ∧ 1 ≤ d.day ∧ d.day ≤ monthLength d.year d.month := by
  simp [isValid, and_assoc]

lemma marchIndex_lt (h : d.isValid = true) : d.marchIndex < 12 := by
  obtain ⟨hfirst, hlast, -⟩ := isValid_iff.1 h
  unfold marchIndex
  split_ifs <;> omega

lemma place_lt_monthStart (h : d.isValid = true) (hindex : d.marchIndex < 11) :
    d.place < monthStart (d.marchIndex + 1) := by
  obtain ⟨hfirst, hlast, hday, hlength⟩ := isValid_iff.1 h
  have hbound : ∀ m, 1 ≤ m → m ≤ 12 → m ≠ 2 →
      monthStart (if m ≤ 2 then m + 9 else m - 3) + monthLength d.year m =
        monthStart ((if m ≤ 2 then m + 9 else m - 3) + 1) := by
    intro m hfirst hlast hmonth
    interval_cases m <;> first | rfl | exact absurd rfl hmonth
  have hmonth : d.month ≠ 2 := by
    intro hmonth
    simp [marchIndex, hmonth] at hindex
  have hend := hbound d.month hfirst hlast hmonth
  rw [← marchIndex] at hend
  rw [place]
  omega

lemma isLeap_iff {y : ℤ} : isLeap y = true ↔ y % 4 = 0 ∧ (y % 100 ≠ 0 ∨ y % 400 = 0) := by
  simp [isLeap]

lemma place_lt_yearStart (h : d.isValid = true) :
    yearStart d.marchYear + d.place < yearStart (d.marchYear + 1) := by
  obtain ⟨hfirst, hlast, hday, hlength⟩ := isValid_iff.1 h
  by_cases hindex : d.marchIndex < 11
  · have hplace := place_lt_monthStart h hindex
    unfold monthStart at hplace
    unfold yearStart
    omega
  · have hmonth : d.month = 2 := by
      unfold marchIndex at hindex
      split_ifs at hindex <;> omega
    have hyear : d.marchYear = d.year - 1 := by simp [marchYear, hmonth]
    have hplace : d.place = 336 + d.day := by simp [place, marchIndex, hmonth, monthStart]
    rw [monthLength, if_pos hmonth] at hlength
    rw [hyear, hplace]
    unfold yearStart
    split_ifs at hlength with hleap
    · rw [isLeap_iff] at hleap
      omega
    · omega

lemma toDays_lt_of_before (hd : d.isValid = true) (he : e.isValid = true) (h : d.Before e) :
    d.toDays < e.toDays := by
  obtain ⟨hdfirst, hdlast, hdday, -⟩ := isValid_iff.1 hd
  obtain ⟨hefirst, helast, heday, -⟩ := isValid_iff.1 he
  have hdend := place_lt_yearStart hd
  rw [toDays_eq, toDays_eq]
  by_cases hyear : d.marchYear < e.marchYear
  · have hnext := yearStart_mono (show d.marchYear + 1 ≤ e.marchYear by omega)
    omega
  -- within a year the months follow one another as their indices do
  · have hparts : d.marchYear = e.marchYear ∧
        (d.marchIndex < e.marchIndex ∨ d.marchIndex = e.marchIndex ∧ d.day < e.day) := by
      unfold marchYear marchIndex Before at *
      split_ifs at * <;> omega
    obtain ⟨hyear, hindex | ⟨hindex, hday⟩⟩ := hparts
    · have hlt := marchIndex_lt he
      have hplace := place_lt_monthStart hd (by omega)
      have hstart : monthStart (d.marchIndex + 1) ≤ monthStart e.marchIndex := by
        unfold monthStart
        omega
      have hlater : monthStart e.marchIndex ≤ e.place := by
        unfold place
        omega
      rw [hyear]
      omega
    · rw [hyear, place, place, hindex]
      omega

lemma before_or_eq_or_before (d e : Date) : d.Before e ∨ d = e ∨ e.Before d := by
  obtain ⟨year, month, day⟩ := d
  obtain ⟨year', month', day'⟩ := e
  simp only [Before, mk.injEq]
  omega

theorem toDays_lt_iff (hd : d.isValid = true) (he : e.isValid = true) :
    d.toDays < e.toDays ↔ d.Before e := by
  refine ⟨fun h => ?_, toDays_lt_of_before hd he⟩
  rcases before_or_eq_or_before d e with hbefore | rfl | hafter
  · exact hbefore
  · exact absurd h (lt_irrefl _)
  · exact absurd h (toDays_lt_of_before he hd hafter).not_gt

lemma ofDays_before_iff {m n : ℤ} : (ofDays m).Before (ofDays n) ↔ m < n := by
  rw [← toDays_lt_iff (isValid_ofDays m) (isValid_ofDays n), toDays_ofDays, toDays_ofDays]

lemma not_before_iff (hd : d.isValid = true) (he : e.isValid = true) :
    ¬d.Before e ↔ e.toDays ≤ d.toDays := by
  rw [← toDays_lt_iff hd he, not_lt]

def firstEve : Date := ⟨-1, 12, 31⟩

def lastMorrow : Date := ⟨10000, 1, 1⟩

lemma ofDays_near {n : ℤ} (hd : d.isValid = true) (hnonneg : 0 ≤ d.year) (hlt : d.year < 10000)
    (hlow : d.toDays - 1 ≤ n) (hhigh : n ≤ d.toDays + 1) :
    (0 ≤ (ofDays n).year ∧ (ofDays n).year < 10000) ∨ ofDays n = firstEve ∨ ofDays n = lastMorrow := by
  have heveYear : firstEve.year < d.year := lt_of_lt_of_le (by decide) hnonneg
  have hafter : firstEve.toDays < d.toDays := toDays_lt_of_before (by decide) hd (.inl heveYear)
  have hbefore : d.toDays < lastMorrow.toDays := toDays_lt_of_before hd (by decide) (.inl hlt)
  have hvalid := isValid_ofDays n
  have heve : ¬(ofDays n).Before firstEve := by
    rw [not_before_iff hvalid (by decide), toDays_ofDays]
    omega
  have hmorrow : ¬lastMorrow.Before (ofDays n) := by
    rw [not_before_iff (by decide) hvalid, toDays_ofDays]
    omega
  generalize ofDays n = e at *
  obtain ⟨year, month, day⟩ := e
  obtain ⟨hfirst, hlast, hday, hlength⟩ := isValid_iff.1 hvalid
  have hmonth : day ≤ 31 := by
    refine hlength.trans ?_
    unfold monthLength
    split_ifs <;> omega
  simp only [Before, firstEve, lastMorrow, mk.injEq] at *
  omega

end Date

namespace Timestamp

open Sequence

variable {cs : List Char} {clock : Clock} {s : String} {t : Instant}

lemma digit_lt {c : Char} {n : ℕ} (h : digit c = .ok n) : n < 10 := by
  rw [digit] at h
  split_ifs at h with hdigit
  obtain rfl := Except.ok.inj h
  exact digit_lt_ten hdigit

lemma twoDigits_lt {a b : Char} {n : ℕ} (h : twoDigits a b = .ok n) : n < 100 := by
  obtain ⟨m, hm, h⟩ := bind_eq_ok_iff.1 h
  obtain ⟨k, hk, h⟩ := bind_eq_ok_iff.1 h
  obtain rfl := Except.ok.inj h
  have hm := digit_lt hm
  have hk := digit_lt hk
  omega

lemma ensure_eq_ok_iff {b : Bool} {defect : Defect} {u : Unit} : ensure b defect = .ok u ↔ b = true := by
  cases b <;> simp [ensure]

lemma exists_date_of_readClock (h : readClock cs = .ok clock) :
    ∃ d : Date, d.isValid = true ∧ 0 ≤ d.year ∧ d.year < 10000 ∧ clock.days = d.toDays := by
  unfold readClock at h
  split at h
  · obtain ⟨y, hy, h⟩ := bind_eq_ok_iff.1 h
    obtain ⟨y', hy', h⟩ := bind_eq_ok_iff.1 h
    obtain ⟨-, -, h⟩ := bind_eq_ok_iff.1 h
    obtain ⟨month, -, h⟩ := bind_eq_ok_iff.1 h
    obtain ⟨-, -, h⟩ := bind_eq_ok_iff.1 h
    obtain ⟨day, -, h⟩ := bind_eq_ok_iff.1 h
    obtain ⟨⟨⟩, hvalid, h⟩ := bind_eq_ok_iff.1 h
    obtain ⟨-, -, h⟩ := bind_eq_ok_iff.1 h
    obtain ⟨hour, -, h⟩ := bind_eq_ok_iff.1 h
    obtain ⟨-, -, h⟩ := bind_eq_ok_iff.1 h
    obtain ⟨minute, -, h⟩ := bind_eq_ok_iff.1 h
    obtain ⟨-, -, h⟩ := bind_eq_ok_iff.1 h
    obtain ⟨second, -, h⟩ := bind_eq_ok_iff.1 h
    obtain rfl := Except.ok.inj h
    have hcentury := twoDigits_lt hy
    have hyear := twoDigits_lt hy'
    refine ⟨_, ensure_eq_ok_iff.1 hvalid, ?_, ?_, rfl⟩
    · exact Int.natCast_nonneg _
    · change ((100 * y + y' : ℕ) : ℤ) < 10000
      omega
  · cases h

lemma exists_clock_of_read (h : read s = .ok t) : ∃ clock nanos offset,
    (∃ d : Date, d.isValid = true ∧ 0 ≤ d.year ∧ d.year < 10000 ∧ clock.days = d.toDays) ∧
      clock.isValid = true ∧ isOffset offset = true ∧ t = instant clock nanos offset := by
  rw [read, readChars] at h
  obtain ⟨-, -, h⟩ := bind_eq_ok_iff.1 h
  obtain ⟨clock, hclock, h⟩ := bind_eq_ok_iff.1 h
  obtain ⟨⟨nanos, cs⟩, -, h⟩ := bind_eq_ok_iff.1 h
  obtain ⟨⟨⟩, hvalid, h⟩ := bind_eq_ok_iff.1 h
  obtain ⟨⟨offset, cs'⟩, -, h⟩ := bind_eq_ok_iff.1 h
  obtain ⟨-, -, h⟩ := bind_eq_ok_iff.1 h
  obtain ⟨⟨⟩, hoffset, h⟩ := bind_eq_ok_iff.1 h
  exact ⟨clock, nanos, offset, exists_date_of_readClock hclock, ensure_eq_ok_iff.1 hvalid,
    ensure_eq_ok_iff.1 hoffset, (Except.ok.inj h).symm⟩

lemma inYears_of_read (h : read s = .ok t) : t.InYears ∨
    Date.ofDays (t.seconds / 86400) = Date.firstEve ∨ Date.ofDays (t.seconds / 86400) = Date.lastMorrow := by
  obtain ⟨clock, nanos, offset, ⟨d, hdate, hnonneg, hlt, hdays⟩, hclock, hoffset, rfl⟩ :=
    exists_clock_of_read h
  simp only [Clock.isValid, isOffset, Bool.and_eq_true, decide_eq_true_eq] at hclock hoffset
  have hnear := Date.ofDays_near (n := (instant clock nanos offset).seconds / 86400) hdate hnonneg hlt
    (by simp only [instant]; omega) (by simp only [instant]; omega)
  rcases hnear with ⟨hlow, hhigh⟩ | hoff
  · exact .inl ⟨hlow, hhigh⟩
  · exact .inr hoff

end Timestamp

end CorridorTrust.Time
