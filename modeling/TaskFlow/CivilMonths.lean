import TaskFlow.IsoDate

/-! # Months of the calendar

The months are numbered one after another across the years.  A month is the days from its first
(`firstDay`) up to the first of the next, and a day is the first of its month and the days of the
month before it (`day_of_month`).
-/
namespace TaskFlow.Filter

/-- The days of the years before, counted from March of year zero on. -/
def yearStart (year : ℤ) : ℤ := year * 365 + year / 4 - year / 100 + year / 400

theorem yearStart_era (era year : ℤ) :
    yearStart (year + era * 400) = era * 146097 + yearStart year := by
  simp only [yearStart]
  omega

theorem yearStart_ofEra {year : ℤ} (h : 0 ≤ year ∧ year ≤ 399) :
    yearStart year = year * 365 + year / 4 - year / 100 := by
  simp only [yearStart]
  omega

theorem lt_yearStart {c q r s : ℤ} (hc : 0 ≤ c) (hq : 0 ≤ q ∧ q ≤ 24) (hr : 0 ≤ r ∧ r ≤ 3)
    (hs : s ≤ 1460) (hrest : r < 3 → s < 365 * (r + 1)) (hlast : q = 24 → s = 1460 → c = 3) :
    36524 * c + 1461 * q + s < yearStart (100 * c + 4 * q + r + 1) := by
  have heras : 0 ≤ (100 * c + 4 * q + r + 1) / 400 := Int.ediv_nonneg (by omega) (by omega)
  rw [yearStart]
  by_cases hthree : r < 3
  · have hquads : (100 * c + 4 * q + r + 1) / 4 = 25 * c + q := by omega
    have hcenturies : (100 * c + 4 * q + r + 1) / 100 = c := by omega
    have hday := hrest hthree
    rw [hquads, hcenturies]
    clear hlast hrest hquads hcenturies
    omega
  obtain rfl : r = 3 := by omega
  have hquads : (100 * c + 4 * q + 3 + 1) / 4 = 25 * c + q + 1 := by omega
  by_cases hlate : q = 24
  · subst hlate
    by_cases hend : s = 1460
    · -- the last day of the era is that of the leap year at its end
      obtain rfl := hlast rfl hend
      rw [hend]
      decide
    · have hcenturies : (100 * c + 4 * 24 + 3 + 1) / 100 = c + 1 := by omega
      rw [hquads, hcenturies]
      clear hlast hrest hquads hcenturies
      omega
  · have hcenturies : (100 * c + 4 * q + 3 + 1) / 100 = c := by omega
    rw [hquads, hcenturies]
    clear hlast hrest hquads hcenturies
    omega

/-- The last day of a year of an era comes before the next year. -/
theorem era_end {e : ℤ} (h0 : 0 ≤ e) (h1 : e < 146097) :
    e < yearStart ((e - e / 1460 + e / 36524 - e / 146096) / 365 + 1) := by
  obtain ⟨c, q, s, hc, hq, hs, hlast, rfl⟩ := era_parts h0 h1
  have hyear := yearOfEra_eq hc hq hs hlast
  obtain ⟨r, hr, hr0, hr3, hrest⟩ :
      ∃ r, min (s / 365) 3 = r ∧ 0 ≤ r ∧ r ≤ 3 ∧ (r < 3 → s < 365 * (r + 1)) := by
    clear hyear h0 h1
    exact ⟨_, rfl, by omega, by omega, by omega⟩
  simp only [hr] at hyear
  rw [hyear]
  exact lt_yearStart hc.1 hq ⟨hr0, hr3⟩ hs.2 hrest hlast

theorem yearStart_succ (year : ℤ) :
    yearStart year + 365 ≤ yearStart (year + 1) ∧ yearStart (year + 1) ≤ yearStart year + 366 := by
  simp only [yearStart]
  omega

theorem daysFromCivil_eq (year month day : ℤ) : daysFromCivil year month day =
    yearStart (if month ≤ 2 then year - 1 else year) + (153 * ((month + 9) % 12) + 2) / 5 + day -
      719469 := by
  have hera (y : ℤ) : yearStart y =
      y / 400 * 146097 + (y % 400 * 365 + y % 400 / 4 - y % 400 / 100) := by
    rw [yearStart]
    omega
  rw [hera]
  simp only [daysFromCivil]
  omega

/-- The first day of a month. -/
def firstDay (month : ℤ) : ℤ := daysFromCivil (month / 12) (month % 12 + 1) 1

/-- The months of a year are counted from March on, so that February, which varies, comes last. -/
theorem exists_shifted (month : ℤ) :
    ∃ year shifted, (0 ≤ shifted ∧ shifted ≤ 11) ∧ month = 12 * year + shifted + 2 :=
  ⟨(month - 2) / 12, (month - 2) % 12, by omega⟩

theorem firstDay_shifted (year : ℤ) {shifted : ℤ} (h : 0 ≤ shifted ∧ shifted ≤ 11) :
    firstDay (12 * year + shifted + 2) = yearStart year + (153 * shifted + 2) / 5 - 719468 := by
  rw [firstDay, daysFromCivil_eq]
  by_cases hlate : shifted < 10
  · have hyear : (12 * year + shifted + 2) / 12 = year := by omega
    have hmonth : (12 * year + shifted + 2) % 12 = shifted + 2 := by omega
    have hback : (shifted + 2 + 1 + 9) % 12 = shifted := by omega
    rw [hyear, hmonth, hback, if_neg (by omega)]
    omega
  · have hyear : (12 * year + shifted + 2) / 12 = year + 1 := by omega
    have hmonth : (12 * year + shifted + 2) % 12 = shifted - 10 := by omega
    have hback : (shifted - 10 + 1 + 9) % 12 = shifted := by omega
    rw [hyear, hmonth, hback, if_pos (by omega), Int.add_sub_cancel]
    omega

/-- The first day behind a month: the month's days end there, or the year's. -/
theorem firstDay_next (year : ℤ) {shifted : ℤ} (h : 0 ≤ shifted ∧ shifted ≤ 11) :
    firstDay (12 * year + shifted + 2 + 1) =
      (if shifted = 11 then yearStart (year + 1)
        else yearStart year + (153 * (shifted + 1) + 2) / 5) - 719468 := by
  split
  next hlast =>
    have hmonth : 12 * year + shifted + 2 + 1 = 12 * (year + 1) + 0 + 2 := by omega
    rw [hmonth, firstDay_shifted (year + 1) (by omega)]
    omega
  next hlast =>
    have hmonth : 12 * year + shifted + 2 + 1 = 12 * year + (shifted + 1) + 2 := by omega
    rw [hmonth, firstDay_shifted year (by omega)]

theorem firstDay_succ (month : ℤ) :
    firstDay month + 28 ≤ firstDay (month + 1) ∧ firstDay (month + 1) ≤ firstDay month + 31 := by
  obtain ⟨year, shifted, hshifted, rfl⟩ := exists_shifted month
  have hyear := yearStart_succ year
  rw [firstDay_shifted year hshifted, firstDay_next year hshifted]
  split <;> omega

theorem firstDay_mono {month month' : ℤ} (h : month ≤ month') :
    firstDay month ≤ firstDay month' := by
  induction month', h using Int.leInduction with
  | base => exact le_rfl
  | succ n _ ih =>
    have hnext := (firstDay_succ n).1
    omega

/-! ### The month of a day -/

/-- The number of a day's month. -/
def monthOf (days : ℤ) : ℤ := (civilFromDays days).1 * 12 + ((civilFromDays days).2.1 - 1)

/-- The number of a day in its month. -/
def dayOf (days : ℤ) : ℤ := (civilFromDays days).2.2

def daysInMonth (month : ℤ) : ℤ := firstDay (month + 1) - firstDay month

theorem firstDay_monthOf (days : ℤ) : firstDay (monthOf days) + dayOf days - 1 = days := by
  obtain ⟨hdays, hmonth, -⟩ := daysFromCivil_civilFromDays days
  have hyear : monthOf days / 12 = (civilFromDays days).1 := by
    rw [monthOf]
    omega
  have hrest : monthOf days % 12 + 1 = (civilFromDays days).2.1 := by
    rw [monthOf]
    omega
  rw [daysFromCivil_eq] at hdays
  rw [firstDay, hyear, hrest, daysFromCivil_eq, dayOf]
  omega

theorem one_le_dayOf (days : ℤ) : 1 ≤ dayOf days := (daysFromCivil_civilFromDays days).2.2.1

theorem civilOf_lt_next (era : ℤ) {y d : ℤ} (hd : 0 ≤ d)
    (hend : yearStart y + d < yearStart (y + 1)) :
    era * 146097 + (yearStart y + d) - 719468 <
      firstDay ((civilOf era y d).1 * 12 + ((civilOf era y d).2.1 - 1) + 1) := by
  have hyear := yearStart_succ y
  obtain ⟨s, hs, hs0, hs11⟩ : ∃ s, (5 * d + 2) / 153 = s ∧ 0 ≤ s ∧ s ≤ 11 :=
    ⟨_, rfl, by omega, by omega⟩
  have hnumber : (civilOf era y d).1 * 12 + ((civilOf era y d).2.1 - 1) =
      12 * (y + era * 400) + s + 2 := by
    simp only [civilOf, hs]
    by_cases hlate : s < 10
    · rw [if_pos hlate, if_neg (by omega)]
      omega
    · rw [if_neg hlate, if_pos (by omega)]
      omega
  have hnext : yearStart (y + era * 400 + 1) = era * 146097 + yearStart (y + 1) := by
    rw [← yearStart_era]
    congr 1
    omega
  rw [hnumber, firstDay_next _ ⟨hs0, hs11⟩, hnext, yearStart_era]
  split <;> omega

theorem lt_next_month (days : ℤ) : days < firstDay (monthOf days + 1) := by
  have h0 := Int.emod_nonneg (days + 719468) (show (146097 : ℤ) ≠ 0 by omega)
  have h1 := Int.emod_lt_of_pos (days + 719468) (show (0 : ℤ) < 146097 by omega)
  obtain ⟨hy0, hy399, hd0, -⟩ := era_bounds h0 h1
  have hend := era_end h0 h1
  have hstart := yearStart_ofEra ⟨hy0, hy399⟩
  have hlt := civilOf_lt_next ((days + 719468) / 146097) hd0 (by rw [hstart]; omega)
  refine lt_of_eq_of_lt ?_ hlt
  have hsplit := Int.mul_ediv_add_emod (days + 719468) 146097
  rw [hstart]
  omega

/-- A day is in a month from its first day up to the first of the next. -/
theorem monthOf_eq_iff (days month : ℤ) :
    monthOf days = month ↔ firstDay month ≤ days ∧ days < firstDay (month + 1) := by
  have hfirst := firstDay_monthOf days
  have hday := one_le_dayOf days
  have hnext := lt_next_month days
  constructor
  · rintro rfl
    omega
  · rintro ⟨hle, hlt⟩
    rcases lt_trichotomy (monthOf days) month with h | h | h
    · have := firstDay_mono (show monthOf days + 1 ≤ month by omega)
      omega
    · exact h
    · have := firstDay_mono (show month + 1 ≤ monthOf days by omega)
      omega

theorem monthOf_mono {days days' : ℤ} (h : days ≤ days') : monthOf days ≤ monthOf days' := by
  by_contra hlt
  have hmono := firstDay_mono (show monthOf days' + 1 ≤ monthOf days by omega)
  have hfirst := firstDay_monthOf days
  have hday := one_le_dayOf days
  have hnext := lt_next_month days'
  omega

end TaskFlow.Filter
