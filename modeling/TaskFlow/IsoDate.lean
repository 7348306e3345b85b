import TaskFlow.RelativeDate

/-! # Reading ISO dates

`new Date(text)` of a day, or of an instant as `toISOString` writes it.  Such a text is read
back as the instant it was written from (`isoTime_toISOString`).
-/
namespace TaskFlow.Filter

/-! ### Days -/

/-- The year of an era, by its centuries, its groups of four years and the days left. -/
theorem yearOfEra_eq {c q s : ℤ} (hc : 0 ≤ c ∧ c ≤ 3) (hq : 0 ≤ q ∧ q ≤ 24)
    (hs : 0 ≤ s ∧ s ≤ 1460) (hlast : q = 24 → s = 1460 → c = 3) :
    let e := 36524 * c + 1461 * q + s
    (e - e / 1460 + e / 36524 - e / 146096) / 365 = 100 * c + 4 * q + min (s / 365) 3 := by
  intro e
  have he : e = 36524 * c + 1461 * q + s := rfl
  clear_value e
  have hquads : e / 1460 = 25 * c + q + if 1460 ≤ 24 * c + q + s then 1 else 0 := by
    split <;> omega
  have hcenturies : e / 36524 - e / 146096 = c := by
    by_cases hend : q = 24 ∧ s = 1460
    · have hthree := hlast hend.1 hend.2
      omega
    · have hcentury : e / 36524 = c := by omega
      have hnot : e / 146096 = 0 := by omega
      omega
  have hrest : e - e / 1460 + e / 36524 - e / 146096 =
      365 * (100 * c + 4 * q) + (s - if 1460 ≤ 24 * c + q + s then 1 else 0) := by
    omega
  rw [hrest]
  split <;> omega

/-- The centuries of an era, their groups of four years and the days left. -/
theorem era_parts {e : ℤ} (h0 : 0 ≤ e) (h1 : e < 146097) :
    ∃ c q s : ℤ, (0 ≤ c ∧ c ≤ 3) ∧ (0 ≤ q ∧ q ≤ 24) ∧ (0 ≤ s ∧ s ≤ 1460) ∧
      (q = 24 → s = 1460 → c = 3) ∧ e = 36524 * c + 1461 * q + s := by
  by_cases h3 : 109572 ≤ e
  · refine ⟨3, (e - 109572) / 1461, (e - 109572) % 1461, ?_⟩
    omega
  · refine ⟨e / 36524, e % 36524 / 1461, e % 36524 % 1461, ?_⟩
    omega

/-- The year of a day of an era, and the day of that year. -/
theorem era_bounds {e : ℤ} (h0 : 0 ≤ e) (h1 : e < 146097) :
    let y := (e - e / 1460 + e / 36524 - e / 146096) / 365
    0 ≤ y ∧ y ≤ 399 ∧ 0 ≤ e - (365 * y + y / 4 - y / 100) ∧
      e - (365 * y + y / 4 - y / 100) ≤ 365 := by
  intro y
  obtain ⟨c, q, s, hc, hq, hs, hlast, rfl⟩ := era_parts h0 h1
  have hy : y = 100 * c + 4 * q + min (s / 365) 3 := yearOfEra_eq hc hq hs hlast
  clear_value y
  obtain ⟨r, hr, hr0, hr3⟩ : ∃ r, min (s / 365) 3 = r ∧ 0 ≤ r ∧ r ≤ 3 :=
    ⟨_, rfl, by omega, by omega⟩
  have hquads : y / 4 = 25 * c + q := by omega
  have hcenturies : y / 100 = c := by omega
  rw [hquads, hcenturies]
  omega

/-- The day of a year of an era, as a date. -/
def civilOf (era yearOfEra dayOfYear : ℤ) : ℤ × ℤ × ℤ :=
  let shifted := (5 * dayOfYear + 2) / 153
  let month := if shifted < 10 then shifted + 3 else shifted - 9
  let year := yearOfEra + era * 400
  (if month ≤ 2 then year + 1 else year, month, dayOfYear - (153 * shifted + 2) / 5 + 1)

theorem daysFromCivil_civilOf (era : ℤ) {y d : ℤ} (hy : 0 ≤ y ∧ y ≤ 399)
    (hd : 0 ≤ d ∧ d ≤ 365) :
    let date := civilOf era y d
    daysFromCivil date.1 date.2.1 date.2.2 =
        era * 146097 + (y * 365 + y / 4 - y / 100 + d) - 719468 ∧
      (1 ≤ date.2.1 ∧ date.2.1 ≤ 12) ∧ 1 ≤ date.2.2 ∧ date.2.2 ≤ 31 := by
  obtain ⟨s, hs, hs0, hs11⟩ : ∃ s, (5 * d + 2) / 153 = s ∧ 0 ≤ s ∧ s ≤ 11 :=
    ⟨_, rfl, by omega, by omega⟩
  have hera : (y + era * 400) / 400 = era := by omega
  have hyear : (y + era * 400) % 400 = y := by omega
  simp only [civilOf, daysFromCivil, hs]
  by_cases hlate : s < 10
  · have hmonth : ¬s + 3 ≤ 2 := by omega
    have hback : (s + 3 + 9) % 12 = s := by omega
    simp only [if_pos hlate, if_neg hmonth, hera, hyear, hback]
    omega
  · have hmonth : s - 9 ≤ 2 := by omega
    have hback : (s - 9 + 9) % 12 = s := by omega
    simp only [if_neg hlate, if_pos hmonth, Int.add_sub_cancel, hera, hyear, hback]
    omega

/-- A day number is that of its year, month and day. -/
theorem daysFromCivil_civilFromDays (days : ℤ) :
    let date := civilFromDays days
    daysFromCivil date.1 date.2.1 date.2.2 = days ∧ (1 ≤ date.2.1 ∧ date.2.1 ≤ 12) ∧
      1 ≤ date.2.2 ∧ date.2.2 ≤ 31 := by
  obtain ⟨hy0, hy399, hd0, hd365⟩ := era_bounds
    (Int.emod_nonneg (days + 719468) (show (146097 : ℤ) ≠ 0 by omega))
    (Int.emod_lt_of_pos (days + 719468) (show (0 : ℤ) < 146097 by omega))
  obtain ⟨hdays, hmonth, hday⟩ := daysFromCivil_civilOf ((days + 719468) / 146097)
    ⟨hy0, hy399⟩ ⟨hd0, hd365⟩
  refine ⟨hdays.trans ?_, hmonth, hday⟩
  have hsplit := Int.mul_ediv_add_emod (days + 719468) 146097
  omega

/-! ### Texts -/

/-- The number in the first `width` characters, and what is after the mark behind them. -/
def nextField (width : ℕ) (text : Text) : ℕ × Text :=
  (Nat.ofDigitChars 10 (text.take width) 0, text.drop (width + 1))

/-- The instant that `toISOString` writes so. -/
def isoTime (text : Text) : Date :=
  let (year, text') := nextField 4 text
  let (month, text') := nextField 2 text'
  let (day, text') := nextField 2 text'
  let (hours, text') := nextField 2 text'
  let (minutes, text') := nextField 2 text'
  let (seconds, text') := nextField 2 text'
  let (ms, _) := nextField 3 text'
  let time : ℤ := daysFromCivil year month day * msPerDay +
    (hours * 3600000 + minutes * 60000 + seconds * 1000 + ms : ℕ)
  if toISOString (some time) = .ok text then timeClip time else none

theorem length_padStart {width n : ℕ} (hwidth : 0 < width) (h : n < 10 ^ width) :
    (padStart width n).length = width := by
  have hlength := (Nat.length_toDigits_le_iff (b := 10) (by omega) hwidth).mpr h
  simp only [padStart, List.length_append, List.length_replicate]
  omega

theorem ofDigitChars_padStart (width n : ℕ) : Nat.ofDigitChars 10 (padStart width n) 0 = n := by
  have hzeros : ∀ (k : ℕ) (rest : Text),
      Nat.ofDigitChars 10 (List.replicate k '0' ++ rest) 0 = Nat.ofDigitChars 10 rest 0 := by
    intro k rest
    induction k with
    | zero => rfl
    | succ k ih => rw [List.replicate_succ, List.cons_append, Nat.ofDigitChars_cons]; exact ih
  rw [padStart, hzeros, Nat.ofDigitChars_ten_toDigits]

theorem nextField_padStart {width n : ℕ} (hwidth : 0 < width) (h : n < 10 ^ width) (c : Char)
    (rest : Text) : nextField width (padStart width n ++ c :: rest) = (n, rest) := by
  have hlength := length_padStart hwidth h
  have hdrop : (padStart width n ++ c :: rest).drop (width + 1) = rest := by
    rw [← List.drop_drop, List.drop_left' hlength, List.drop_one, List.tail_cons]
  rw [nextField, List.take_left' hlength, ofDigitChars_padStart, hdrop]

/-- An instant as its parts, the year of four digits. -/
def isoText (year month day ms : ℕ) : Text :=
  padStart 4 year ++ '-' :: (padStart 2 month ++ '-' :: (padStart 2 day ++
    'T' :: (padStart 2 (ms / 3600000) ++ ':' :: (padStart 2 (ms / 60000 % 60) ++
    ':' :: (padStart 2 (ms / 1000 % 60) ++ '.' :: (padStart 3 (ms % 1000) ++ ['Z']))))))

theorem toISOString_eq {time : ℤ} {year month day ms : ℕ} (hyear : year ≤ 9999)
    (hcivil : civilFromDays (time / msPerDay) = (↑year, ↑month, ↑day))
    (hms : time % msPerDay = ms) :
    toISOString (some time) = .ok (isoText year month day ms) := by
  have hrange : 0 ≤ (year : ℤ) ∧ (year : ℤ) ≤ 9999 := by omega
  simp only [toISOString, hcivil, hms, isoYear, if_pos hrange, Int.toNat_natCast, isoText,
    List.append_assoc, List.cons_append]

theorem isoTime_isoText {year month day ms : ℕ} (hyear : year ≤ 9999) (hmonth : month ≤ 12)
    (hday : day ≤ 31) (hms : ms < 86400000) :
    isoTime (isoText year month day ms) =
      if toISOString (some (daysFromCivil year month day * msPerDay + ms)) =
          .ok (isoText year month day ms) then
        timeClip (daysFromCivil year month day * msPerDay + ms) else none := by
  have hparts : ms / 3600000 * 3600000 + ms / 60000 % 60 * 60000 + ms / 1000 % 60 * 1000 +
      ms % 1000 = ms := by omega
  rw [isoTime]
  simp only [show nextField 4 (isoText year month day ms) = (year, _) from
      nextField_padStart (by omega) (by omega) _ _,
    nextField_padStart (show 0 < 2 by omega) (show month < 10 ^ 2 by omega),
    nextField_padStart (show 0 < 2 by omega) (show day < 10 ^ 2 by omega),
    nextField_padStart (show 0 < 2 by omega) (show ms / 3600000 < 10 ^ 2 by omega),
    nextField_padStart (show 0 < 2 by omega) (show ms / 60000 % 60 < 10 ^ 2 by omega),
    nextField_padStart (show 0 < 2 by omega) (show ms / 1000 % 60 < 10 ^ 2 by omega),
    nextField_padStart (show 0 < 3 by omega) (show ms % 1000 < 10 ^ 3 by omega), hparts]

/-- An instant of a year of four digits is written as its parts. -/
theorem exists_isoText {time : ℤ} (hyear : 0 ≤ (civilFromDays (time / msPerDay)).1 ∧
    (civilFromDays (time / msPerDay)).1 ≤ 9999) :
    ∃ year month day ms : ℕ, (year ≤ 9999 ∧ month ≤ 12 ∧ day ≤ 31 ∧ ms < 86400000) ∧
      daysFromCivil year month day * msPerDay + ms = time ∧
      toISOString (some time) = .ok (isoText year month day ms) := by
  obtain ⟨hdays, hmonth, hday⟩ := daysFromCivil_civilFromDays (time / msPerDay)
  obtain ⟨ms, hms⟩ := Int.eq_ofNat_of_zero_le
    (Int.emod_nonneg time (show msPerDay ≠ 0 by decide))
  have hrest : (ms : ℤ) < msPerDay := hms ▸ Int.emod_lt_of_pos time (show 0 < msPerDay by decide)
  rw [msPerDay] at hrest
  obtain ⟨year, hy⟩ := Int.eq_ofNat_of_zero_le hyear.1
  obtain ⟨month, hm⟩ := Int.eq_ofNat_of_zero_le (show 0 ≤ (civilFromDays (time / msPerDay)).2.1 by
    omega)
  obtain ⟨day, hd⟩ := Int.eq_ofNat_of_zero_le (show 0 ≤ (civilFromDays (time / msPerDay)).2.2 by
    omega)
  have hcivil : civilFromDays (time / msPerDay) = (↑year, ↑month, ↑day) :=
    Prod.ext hy (Prod.ext hm hd)
  rw [hy] at hyear
  rw [hm] at hmonth
  rw [hd] at hday
  refine ⟨year, month, day, ms, by omega, ?_, toISOString_eq (by omega) hcivil hms⟩
  rw [hcivil] at hdays
  rw [hdays, ← hms, Int.mul_comm]
  exact Int.mul_ediv_add_emod time msPerDay

theorem isoTime_of_isoText {time : ℤ} (hvalid : timeClip time = some time)
    {year month day ms : ℕ}
    (hparts : year ≤ 9999 ∧ month ≤ 12 ∧ day ≤ 31 ∧ ms < 86400000)
    (htime : daysFromCivil year month day * msPerDay + ms = time)
    (htext : toISOString (some time) = .ok (isoText year month day ms)) :
    isoTime (isoText year month day ms) = some time := by
  obtain ⟨hyear, hmonth, hday, hms⟩ := hparts
  rw [isoTime_isoText hyear hmonth hday hms, htime, if_pos htext, hvalid]

end TaskFlow.Filter
