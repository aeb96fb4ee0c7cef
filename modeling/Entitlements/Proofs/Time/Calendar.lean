import Entitlements.Time.Calendar

/-!
Days and dates. Every day in the range of the calendar is the count of exactly the date that it is
turned into, so going to a date and back loses nothing. The year is found by a chain of divisions;
what carries the proof is that the parts of the chain are the digits of the year in a mixed base,
and that the days left over are fewer than the year has, where only a leap year has a day more.
-/

namespace Entitlements.Time

/-! ### Years -/

/-- The days before a year, by the cycles that the years before it make up. -/
theorem daysBeforeYear_cycles {a b c d : Nat} (hb : b ≤ 3) (hc : c ≤ 24) (hd : d ≤ 3) :
    daysBeforeYear (400 * a + 100 * b + 4 * c + d + 1) =
      146097 * a + 36524 * b + 1461 * c + 365 * d := by
  simp only [daysBeforeYear]
  omega

theorem isLeap_cycles {a b c d : Nat} (hb : b ≤ 3) (hc : c ≤ 24) (hd : d ≤ 3) :
    isLeap (400 * a + 100 * b + 4 * c + d + 1) =
      (decide (d = 3) && (decide (c ≠ 24) || decide (b = 3))) := by
  rw [Bool.eq_iff_iff]
  simp only [isLeap, Bool.and_eq_true, Bool.or_eq_true, beq_iff_eq, bne_iff_ne, decide_eq_true_eq]
  omega

def yearLength (year : Nat) : Nat := if isLeap year then 366 else 365

/-- The year of a day starts on or before it, ends after it, and has at most four digits. -/
theorem yearOf_bounds {days : Nat} (h : days < dayCount) :
    daysBeforeYear (yearOf days) ≤ days ∧
      (days : Int) < daysBeforeYear (yearOf days) + yearLength (yearOf days) ∧
      yearOf days ≤ 9999 := by
  unfold dayCount at h
  obtain ⟨b, hb⟩ : ∃ b, b = min (days % 146097 / 36524) 3 := ⟨_, rfl⟩
  obtain ⟨c, hc⟩ : ∃ c, c = (days % 146097 - 36524 * b) / 1461 := ⟨_, rfl⟩
  obtain ⟨d, hd⟩ : ∃ d, d = min ((days % 146097 - 36524 * b) % 1461 / 365) 3 := ⟨_, rfl⟩
  have hyear : yearOf days = 400 * (days / 146097) + 100 * b + 4 * c + d + 1 := by
    rw [yearOf, hd, hc, hb]
  have hb3 : b ≤ 3 := by omega
  have hc24 : c ≤ 24 := by omega
  have hd3 : d ≤ 3 := by omega
  rw [hyear, yearLength, isLeap_cycles hb3 hc24 hd3, daysBeforeYear_cycles hb3 hc24 hd3]
  refine ⟨by omega, ?_, by omega⟩
  split
  · omega
  · next hleap =>
    simp only [Bool.and_eq_true, Bool.or_eq_true, decide_eq_true_eq] at hleap
    omega

/-! ### Months -/

theorem daysBeforeMonth_succ {year month : Nat} (h : 1 ≤ month) :
    daysBeforeMonth year (month + 1) = daysBeforeMonth year month + monthLength year month := by
  obtain ⟨month, rfl⟩ : ∃ m, month = m + 1 := ⟨month - 1, by omega⟩
  rfl

theorem daysBeforeMonth_thirteen (year : Nat) : daysBeforeMonth year 13 = yearLength year := by
  unfold yearLength
  cases h : isLeap year <;> simp [daysBeforeMonth, monthLength, h]

/-- Walking through the last months of a year ends in the one that a day belongs to. The induction
is on how many months are left. -/
theorem monthFrom_spec {year : Nat} (left : Nat) :
    ∀ {month rest : Nat}, 1 ≤ month → month + left = 13 →
      daysBeforeMonth year month + rest < yearLength year →
      let found := monthFrom year rest (List.range' month left)
      1 ≤ found.1 ∧ found.1 ≤ 12 ∧ found.2 < monthLength year found.1 ∧
        daysBeforeMonth year found.1 + found.2 = daysBeforeMonth year month + rest := by
  induction left with
  | zero =>
    intro month rest hm hleft hrest
    obtain rfl : month = 13 := by omega
    rw [daysBeforeMonth_thirteen] at hrest
    omega
  | succ left ih =>
    intro month rest hm hleft hrest
    simp only [List.range'_succ, monthFrom]
    split
    · next hlt => exact ⟨hm, by omega, hlt, rfl⟩
    · next hge =>
      have hsum : daysBeforeMonth year (month + 1) + (rest - monthLength year month) =
          daysBeforeMonth year month + rest := by
        rw [daysBeforeMonth_succ hm]
        omega
      have hlt : daysBeforeMonth year (month + 1) + (rest - monthLength year month) <
          yearLength year := by omega
      have hnext := ih (by omega) (by omega) hlt
      rwa [hsum] at hnext

/-! ### Dates -/

theorem monthLength_le (year month : Nat) : monthLength year month ≤ 31 := by
  unfold monthLength
  split
  · split <;> omega
  · omega
  · omega
  · omega
  · omega
  · omega

theorem Date.isValid_iff {d : Date} :
    d.isValid = true ↔ d.year ≤ 9999 ∧ 1 ≤ d.month ∧ d.month ≤ 12 ∧ 1 ≤ d.day ∧
      d.day ≤ monthLength d.year d.month := by
  simp [Date.isValid, and_assoc]

/-- Going from a day to its date and back loses nothing, and the date is one of the calendar. -/
theorem ofDays_spec {days : Nat} (h : days < dayCount) :
    (Date.ofDays days).isValid = true ∧ (Date.ofDays days).toDays = days := by
  obtain ⟨hle, hlt, hyear⟩ := yearOf_bounds h
  have hrest : daysBeforeMonth (yearOf days) 1 + (days - daysBeforeYear (yearOf days)).toNat <
      yearLength (yearOf days) := by
    simp only [daysBeforeMonth]
    omega
  obtain ⟨h1, h12, hday, hsum⟩ := monthFrom_spec 12 (Nat.le_refl 1) rfl hrest
  have hmonths : List.range' 1 12 = [1, 2, 3, 4, 5, 6, 7, 8, 9, 10, 11, 12] := rfl
  rw [hmonths] at h1 h12 hday hsum
  simp only [daysBeforeMonth] at hsum
  constructor
  · rw [Date.isValid_iff]
    simp only [Date.ofDays]
    omega
  · simp only [Date.toDays, Date.ofDays]
    omega

/-- The parts of a date have as many digits as are written. -/
theorem ofDays_digits {days : Nat} (h : days < dayCount) :
    (Date.ofDays days).year < 10000 ∧ (Date.ofDays days).month < 100 ∧
      (Date.ofDays days).day < 100 := by
  have hvalid := Date.isValid_iff.1 (ofDays_spec h).1
  have hlength := monthLength_le (Date.ofDays days).year (Date.ofDays days).month
  omega

end Entitlements.Time
