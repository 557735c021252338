import Mathlib
import CorridorTrust.Time.Date

namespace CorridorTrust.Time.Date

/-- The parts of a day. The year that begins in March has a day more than 365 when it is the last of a
group that is not the last of its century, or the last of the cycle. -/
structure Parts where
  cycle : ℤ
  century : ℕ
  group : ℕ
  single : ℕ
  rest : ℕ
  century_le : century ≤ 3
  group_le : group ≤ 24
  single_le : single ≤ 3
  rest_le : rest < 365 ∨ rest = 365 ∧ single = 3 ∧ (group < 24 ∨ century = 3)

namespace Parts

variable (p : Parts)

def days : ℤ :=
  146097 * p.cycle + (36524 * p.century + 1461 * p.group + 365 * p.single + p.rest : ℕ) - epochShift

def year : ℤ := 400 * p.cycle + (100 * p.century + 4 * p.group + p.single : ℕ)

def index : ℕ := (5 * p.rest + 2) / 153

def day : ℕ := p.rest - monthStart p.index + 1

def date : Date :=
  if p.index < 10 then ⟨p.year, p.index + 3, p.day⟩ else ⟨p.year + 1, p.index - 9, p.day⟩

lemma index_lt : p.index < 12 := by
  have hrest := p.rest_le
  rw [index]
  omega

lemma monthStart_index_le : monthStart p.index ≤ p.rest := by
  rw [monthStart, index]
  omega

lemma leaps : 365 * p.year + p.year / 4 - p.year / 100 + p.year / 400 =
    146097 * p.cycle + (36524 * p.century + 1461 * p.group + 365 * p.single : ℕ) := by
  have hcentury := p.century_le
  have hgroup := p.group_le
  have hsingle := p.single_le
  have hfour : p.year / 4 = 100 * p.cycle + (25 * p.century + p.group : ℕ) := by
    rw [year]
    omega
  have hhundred : p.year / 100 = 4 * p.cycle + p.century := by
    rw [year]
    omega
  have hcycle : p.year / 400 = p.cycle := by
    rw [year]
    omega
  rw [hfour, hhundred, hcycle, year]
  omega

theorem toDays_date : p.date.toDays = p.days := by
  have hstart := p.monthStart_index_le
  have hplace : monthStart p.index + p.day - 1 = p.rest := by
    rw [day]
    omega
  have hleaps := p.leaps
  unfold date toDays
  split_ifs with hindex hmonth hmonth
  · exact absurd hmonth (by simp)
  · simp only [Nat.add_sub_cancel, hplace]
    rw [hleaps, days]
    omega
  · have hback : p.index - 9 + 9 = p.index := by omega
    simp only [add_sub_cancel_right, hback, hplace]
    rw [hleaps, days]
    omega
  · have hlt := p.index_lt
    simp only at hmonth
    omega

lemma isLeap_of_rest (h : p.rest = 365) : isLeap (p.year + 1) = true := by
  have hrest := p.rest_le
  have hcentury := p.century_le
  have hgroup := p.group_le
  have hleap : (p.year + 1) % 4 = 0 ∧ ((p.year + 1) % 100 ≠ 0 ∨ (p.year + 1) % 400 = 0) := by
    rw [year]
    omega
  simpa [isLeap] using hleap

lemma day_le_monthLength : p.day ≤ monthLength p.date.year p.date.month := by
  have hrest := p.rest_le
  have hlt := p.index_lt
  have hindex : p.index = (5 * p.rest + 2) / 153 := rfl
  have hday : p.day = p.rest - (153 * p.index + 2) / 5 + 1 := rfl
  rw [date]
  split_ifs with hten
  · change p.day ≤ monthLength p.year (p.index + 3)
    rw [monthLength]
    split_ifs <;> omega
  · change p.day ≤ monthLength (p.year + 1) (p.index - 9)
    rw [monthLength]
    split_ifs with hfebruary hleap
    · omega
    · have hshort : p.rest ≠ 365 := fun h => hleap (p.isLeap_of_rest h)
      omega
    · omega
    · omega

theorem isValid_date : p.date.isValid = true := by
  have hlt := p.index_lt
  have hdate : 1 ≤ p.date.month ∧ p.date.month ≤ 12 ∧ p.date.day = p.day := by
    rw [date]
    split_ifs with hten
    · exact ⟨by simp, by simp; omega, rfl⟩
    · exact ⟨by simp; omega, by simp; omega, rfl⟩
  obtain ⟨hfirst, hlast, hday⟩ := hdate
  have hpos : 1 ≤ p.day := by simp [day]
  simp [isValid, hfirst, hlast, hday, hpos, p.day_le_monthLength]

end Parts

lemma exists_parts (n : ℤ) : ∃ p : Parts, p.days = n ∧ ofDays n = p.date := by
  refine ⟨⟨(n + epochShift) / 146097, _, _, _, _, ?_, ?_, ?_, ?_⟩, ?_, rfl⟩
  · omega
  · omega
  · omega
  · omega
  · rw [Parts.days]
    dsimp only
    omega

theorem toDays_ofDays (n : ℤ) : (ofDays n).toDays = n := by
  obtain ⟨p, hp, hdate⟩ := exists_parts n
  rw [hdate, p.toDays_date, hp]

theorem isValid_ofDays (n : ℤ) : (ofDays n).isValid = true := by
  obtain ⟨p, -, hdate⟩ := exists_parts n
  rw [hdate, p.isValid_date]

lemma ofDays_injective : Function.Injective ofDays := Function.LeftInverse.injective toDays_ofDays

end CorridorTrust.Time.Date
