import TaskFlow.CivilMonths

/-! # Symbolic dates and the clock

An offset of days or weeks adds to the instant, and an offset of months moves the day to another
month, where a day past the month's end runs over into the next.  So a symbolic date is monotone in
the clock and lands in the month it names as long as that month has the clock's day
(`resolve_monotone_iff`).
-/
namespace TaskFlow.Filter

/-! ### What an offset adds -/

theorem makeDay_eq (year month day : ℤ) :
    makeDay year month day = firstDay (year * 12 + month) + day - 1 := by
  have hyear : (year * 12 + month) / 12 = year + month / 12 := by omega
  have hmonth : (year * 12 + month) % 12 = month % 12 := by omega
  rw [makeDay, firstDay, hyear, hmonth]

theorem addDays_civil (time days : ℤ) : addDays time days =
    makeDate (makeDay (civilFromDays (time / msPerDay)).1
      ((civilFromDays (time / msPerDay)).2.1 - 1) (dayOf (time / msPerDay) + days)) time := (rfl)

theorem addMonths_civil (time months : ℤ) : addMonths time months =
    makeDate (makeDay (civilFromDays (time / msPerDay)).1
      ((civilFromDays (time / msPerDay)).2.1 - 1 + months) (dayOf (time / msPerDay))) time := (rfl)

theorem addDays_eq (time days : ℤ) : addDays time days = timeClip (time + days * msPerDay) := by
  have hday := firstDay_monthOf (time / msPerDay)
  have hsplit := Int.mul_ediv_add_emod time msPerDay
  have hmove : makeDay (civilFromDays (time / msPerDay)).1
      ((civilFromDays (time / msPerDay)).2.1 - 1) (dayOf (time / msPerDay) + days) =
        time / msPerDay + days := by
    rw [makeDay_eq, ← monthOf]
    omega
  rw [addDays_civil, hmove, makeDate]
  congr 1
  rw [msPerDay] at hsplit ⊢
  omega

/-- The day that an offset of months comes to. -/
def movedDay (time months : ℤ) : ℤ :=
  firstDay (monthOf (time / msPerDay) + months) + dayOf (time / msPerDay) - 1

theorem addMonths_eq (time months : ℤ) :
    addMonths time months = timeClip (movedDay time months * msPerDay + time % msPerDay) := by
  rw [addMonths_civil, makeDay_eq, makeDate, movedDay, monthOf, Int.add_assoc]

theorem eq_of_timeClip {time result : ℤ} (h : timeClip time = some result) : time = result := by
  unfold timeClip at h
  split at h
  · exact Option.some_inj.mp h
  · cases h

theorem timeClip_valid {time instant : ℤ} (h : timeClip time = some instant) :
    timeClip instant = some instant := by
  have heq := eq_of_timeClip h
  rwa [heq] at h

/-- The month has the day. -/
theorem movedDay_month (time months : ℤ) :
    monthOf (movedDay time months) = monthOf (time / msPerDay) + months ↔
      dayOf (time / msPerDay) ≤ daysInMonth (monthOf (time / msPerDay) + months) := by
  have hday := one_le_dayOf (time / msPerDay)
  rw [monthOf_eq_iff, movedDay, daysInMonth]
  omega

theorem day_of_moved (day time : ℤ) : (day * msPerDay + time % msPerDay) / msPerDay = day := by
  rw [msPerDay]
  omega

/-- Where both months have the day, a later instant is moved to a later one. -/
theorem movedDay_mono {t1 t2 months : ℤ} (hle : t1 ≤ t2)
    (h1 : dayOf (t1 / msPerDay) ≤ daysInMonth (monthOf (t1 / msPerDay) + months)) :
    movedDay t1 months * msPerDay + t1 % msPerDay ≤
      movedDay t2 months * msPerDay + t2 % msPerDay := by
  have hdays : t1 / msPerDay ≤ t2 / msPerDay := Int.ediv_le_ediv (by decide) hle
  have hrest1 := Int.emod_lt_of_pos t1 (show 0 < msPerDay by decide)
  have hrest2 := Int.emod_nonneg t2 (show msPerDay ≠ 0 by decide)
  have hday1 := firstDay_monthOf (t1 / msPerDay)
  have hday2 := firstDay_monthOf (t2 / msPerDay)
  rcases (monthOf_mono hdays).eq_or_lt with hsame | hlater
  · -- in one month the days keep their distance
    have hsplit1 := Int.mul_ediv_add_emod t1 msPerDay
    have hsplit2 := Int.mul_ediv_add_emod t2 msPerDay
    have hmoved : movedDay t2 months - t2 / msPerDay = movedDay t1 months - t1 / msPerDay := by
      rw [hsame] at hday1
      rw [movedDay, movedDay, hsame]
      omega
    rw [msPerDay] at *
    omega
  · -- the earlier is in an earlier month still
    have hmove := firstDay_mono
      (show monthOf (t1 / msPerDay) + months + 1 ≤ monthOf (t2 / msPerDay) + months by omega)
    have hday2 := one_le_dayOf (t2 / msPerDay)
    have hearlier : movedDay t1 months + 1 ≤ movedDay t2 months := by
      rw [daysInMonth] at h1
      rw [movedDay, movedDay]
      omega
    rw [msPerDay] at *
    omega

/-! ### What `toISOString` tells apart -/

/-- The text of an instant behind its year. -/
def clockText (month day ms : ℕ) : Text :=
  padStart 2 month ++ '-' :: (padStart 2 day ++
    'T' :: (padStart 2 (ms / 3600000) ++ ':' :: (padStart 2 (ms / 60000 % 60) ++
    ':' :: (padStart 2 (ms / 1000 % 60) ++ '.' :: (padStart 3 (ms % 1000) ++ ['Z'])))))

theorem toISOString_clock (time : ℤ) : toISOString (some time) =
    .ok (isoYear (civilFromDays (time / msPerDay)).1 ++
      '-' :: clockText (civilFromDays (time / msPerDay)).2.1.toNat
        (dayOf (time / msPerDay)).toNat (time % msPerDay).toNat) := by
  rw [toISOString]
  simp only [clockText, dayOf, List.append_assoc, List.cons_append]

/-- A field of fixed width is read off what it begins. -/
theorem padStart_inj {width m n : ℕ} (hwidth : 0 < width) (hm : m < 10 ^ width)
    (hn : n < 10 ^ width) {c : Char} {a b : Text}
    (h : padStart width m ++ c :: a = padStart width n ++ c :: b) : m = n ∧ a = b := by
  have hread := nextField_padStart hwidth hm c a
  rw [h, nextField_padStart hwidth hn c b] at hread
  exact ⟨(congrArg Prod.fst hread).symm, (congrArg Prod.snd hread).symm⟩

theorem clockText_inj {m d ms m' d' ms' : ℕ} (hm : m < 100) (hd : d < 100) (hms : ms < 86400000)
    (hm' : m' < 100) (hd' : d' < 100) (hms' : ms' < 86400000)
    (h : clockText m d ms = clockText m' d' ms') : m = m' ∧ d = d' ∧ ms = ms' := by
  obtain ⟨hmonth, hday⟩ := padStart_inj (by omega) (by omega) (by omega) h
  obtain ⟨hday, hhours⟩ := padStart_inj (by omega) (by omega) (by omega) hday
  obtain ⟨hhours, hminutes⟩ := padStart_inj (by omega) (by omega) (by omega) hhours
  obtain ⟨hminutes, hseconds⟩ := padStart_inj (by omega) (by omega) (by omega) hminutes
  obtain ⟨hseconds, hrest⟩ := padStart_inj (by omega) (by omega) (by omega) hseconds
  obtain ⟨hrest, -⟩ := padStart_inj (by omega) (by omega) (by omega) hrest
  exact ⟨hmonth, hday, by omega⟩

/-- A padded number begins with a digit. -/
theorem padStart_head (width n : ℕ) :
    ∃ c tail, padStart width n = c :: tail ∧ c.isDigit = true := by
  have hdigits : ∀ c ∈ padStart width n, c.isDigit = true := by
    intro c hc
    rcases List.mem_append.mp hc with hzero | hdigit
    · rw [List.eq_of_mem_replicate hzero]
      rfl
    · exact Nat.isDigit_of_mem_toDigits (by omega) (by omega) hdigit
  have hne : padStart width n ≠ [] := fun h =>
    Nat.toDigits_ne_nil (List.append_eq_nil_iff.mp h).2
  obtain ⟨c, tail, hcons⟩ := List.exists_cons_of_ne_nil hne
  exact ⟨c, tail, hcons, hdigits c (hcons ▸ List.mem_cons_self)⟩

theorem isoYear_sign {y : ℤ} (h : ¬(0 ≤ y ∧ y ≤ 9999)) :
    isoYear y = (if y < 0 then '-' else '+') :: padStart 6 y.natAbs := by
  rw [isoYear, if_neg h]

/-- A year without a sign is none with a sign. -/
theorem padStart_ne_sign (width m : ℕ) (y : ℤ) (rest rest' : Text) :
    padStart width m ++ rest ≠ (if y < 0 then '-' else '+') :: rest' := by
  obtain ⟨c, tail, hcons, hdigit⟩ := padStart_head width m
  rw [hcons, List.cons_append]
  intro h
  rw [(List.cons.inj h).1] at hdigit
  split at hdigit <;> cases hdigit

theorem isoYear_inj {y y' : ℤ} (hy : y.natAbs < 1000000) (hy' : y'.natAbs < 1000000) {a b : Text}
    (h : isoYear y ++ '-' :: a = isoYear y' ++ '-' :: b) : y = y' ∧ a = b := by
  by_cases hrange : 0 ≤ y ∧ y ≤ 9999
  · rw [isoYear, if_pos hrange] at h
    by_cases hrange' : 0 ≤ y' ∧ y' ≤ 9999
    · rw [isoYear, if_pos hrange'] at h
      obtain ⟨hyear, hrest⟩ := padStart_inj (by omega) (by omega) (by omega) h
      exact ⟨by omega, hrest⟩
    · rw [isoYear_sign hrange', List.cons_append] at h
      exact absurd h (padStart_ne_sign _ _ _ _ _)
  · rw [isoYear_sign hrange, List.cons_append] at h
    by_cases hrange' : 0 ≤ y' ∧ y' ≤ 9999
    · rw [isoYear, if_pos hrange'] at h
      exact absurd h.symm (padStart_ne_sign _ _ _ _ _)
    · rw [isoYear_sign hrange', List.cons_append] at h
      obtain ⟨hsign, h⟩ := List.cons.inj h
      obtain ⟨hyear, hrest⟩ := padStart_inj (by omega) (by omega) (by omega) h
      refine ⟨?_, hrest⟩
      split at hsign <;> split at hsign <;> first | omega | cases hsign

theorem timeClip_bounds {time : ℤ} (h : timeClip time = some time) :
    -8640000000000000 ≤ time ∧ time ≤ 8640000000000000 := by
  unfold timeClip at h
  split at h
  next hle => exact abs_le.mp hle
  · cases h

/-- The year of an instant has six digits at most. -/
theorem year_bounds {time : ℤ} (h : timeClip time = some time) :
    (civilFromDays (time / msPerDay)).1.natAbs < 1000000 := by
  have hbounds := timeClip_bounds h
  obtain ⟨hdays, hmonth, hday⟩ := daysFromCivil_civilFromDays (time / msPerDay)
  rw [daysFromCivil_eq, yearStart] at hdays
  rw [msPerDay] at *
  split at hdays <;> omega

theorem toISOString_inj {t t' : ℤ} (ht : timeClip t = some t) (ht' : timeClip t' = some t')
    (h : toISOString (some t) = toISOString (some t')) : t = t' := by
  rw [toISOString_clock, toISOString_clock, Except.ok.injEq] at h
  obtain ⟨hyear, hclock⟩ := isoYear_inj (year_bounds ht) (year_bounds ht') h
  obtain ⟨hdays, hmonth, hday⟩ := daysFromCivil_civilFromDays (t / msPerDay)
  obtain ⟨hdays', hmonth', hday'⟩ := daysFromCivil_civilFromDays (t' / msPerDay)
  have hms := Int.emod_nonneg t (show msPerDay ≠ 0 by decide)
  have hms' := Int.emod_nonneg t' (show msPerDay ≠ 0 by decide)
  have hlt := Int.emod_lt_of_pos t (show 0 < msPerDay by decide)
  have hlt' := Int.emod_lt_of_pos t' (show 0 < msPerDay by decide)
  have hlength : msPerDay = 86400000 := rfl
  rw [dayOf, dayOf] at hclock
  obtain ⟨hm, hd, hrest⟩ := clockText_inj (by omega) (by omega) (by omega) (by omega) (by omega)
    (by omega) hclock
  have hsame : t / msPerDay = t' / msPerDay := by
    rw [← hdays, ← hdays', hyear]
    congr 1 <;> omega
  rw [← Int.mul_ediv_add_emod t msPerDay, ← Int.mul_ediv_add_emod t' msPerDay, hsame]
  omega

/-! ### The clock -/

/-- At an instant of the clock the symbolic date is the text of another instant. -/
structure Resolves (value : Text) (time result : ℤ) : Prop where
  clock : timeClip time = some time
  valid : timeClip result = some result
  text : ∃ text, resolveSymbolicDate value (some time) = .ok (some text) ∧
    toISOString (some result) = .ok text

/-- An expression of months lands in the month so many months from the clock's. -/
def LandsInMonth (value : Text) (time result : ℤ) : Prop :=
  ∀ sign amount, relativeOffset value = some (sign, amount, .month) →
    monthOf (result / msPerDay) = monthOf (time / msPerDay) + sign * amount

/-- The month that an expression of months names has the clock's day. -/
def HasDay (value : Text) (time : ℤ) : Prop :=
  ∀ sign amount, relativeOffset value = some (sign, amount, .month) →
    dayOf (time / msPerDay) ≤ daysInMonth (monthOf (time / msPerDay) + sign * amount)

/-- The instant that is written is the one resolved to. -/
theorem Resolves.eq_of_date {value : Text} {time result : ℤ} (h : Resolves value time result)
    {date : Date} (hdate : resolveSymbolicDate value (some time) = some <$> toISOString date)
    (hvalid : ∀ instant, date = some instant → timeClip instant = some instant) :
    date = some result := by
  obtain ⟨text, htext, hresult⟩ := h.text
  rw [hdate] at htext
  cases date with
  | none => cases htext
  | some instant =>
    have hinstant : toISOString (some instant) = .ok text := by
      rw [toISOString_clock] at htext ⊢
      cases htext
      rfl
    rw [toISOString_inj (hvalid instant rfl) h.valid (hinstant.trans hresult.symm)]

/-- The instant of an offset, where it is in the range of dates. -/
def offsetInstant (time sign : ℤ) (amount : ℕ) : OffsetUnit → ℤ
  | .day => time + sign * amount * msPerDay
  | .week => time + sign * amount * 7 * msPerDay
  | .month => movedDay time (sign * amount) * msPerDay + time % msPerDay

theorem applyOffset_eq (time sign : ℤ) (amount : ℕ) (unit : OffsetUnit) :
    applyOffset (some time) sign amount unit = timeClip (offsetInstant time sign amount unit) := by
  cases unit with
  | day => exact addDays_eq time _
  | week => exact addDays_eq time _
  | month => exact addMonths_eq time _

theorem isSymbolicDate_cases {value : Text} (h : isSymbolicDate value = true) :
    value = TODAY ∨ value = NOW ∨
      ∃ sign amount unit, relativeOffset value = some (sign, amount, unit) := by
  rw [isSymbolicDate, Bool.or_eq_true, Bool.or_eq_true, beq_iff_eq, beq_iff_eq,
    Option.isSome_iff_exists] at h
  rcases h with (htoday | hnow) | ⟨⟨sign, amount, unit⟩, hoffset⟩
  · exact .inl htoday
  · exact .inr (.inl hnow)
  · exact .inr (.inr ⟨sign, amount, unit, hoffset⟩)

theorem resolveSymbolicDate_offset {value : Text} {sign : ℤ} {amount : ℕ} {unit : OffsetUnit}
    (h : relativeOffset value = some (sign, amount, unit)) (now : Date) :
    resolveSymbolicDate value now = some <$> toISOString (applyOffset now sign amount unit) := by
  have htoday : value ≠ TODAY := by
    rintro rfl
    cases h
  have hnow : value ≠ NOW := by
    rintro rfl
    cases h
  rw [resolveSymbolicDate, if_neg htoday, if_neg hnow, h]

theorem resolveSymbolicDate_now (now : Date) :
    resolveSymbolicDate NOW now = some <$> toISOString now := by
  rw [resolveSymbolicDate, if_neg (by decide), if_pos rfl]

namespace Resolves

variable {value : Text} {time result : ℤ} (h : Resolves value time result)
include h

theorem eq_of_clip {instant : ℤ}
    (hdate : resolveSymbolicDate value (some time) = some <$> toISOString (timeClip instant)) :
    instant = result :=
  eq_of_timeClip (h.eq_of_date hdate fun _ => timeClip_valid)

theorem today (hvalue : value = TODAY) : result = time / msPerDay * msPerDay := by
  subst hvalue
  exact (h.eq_of_clip (if_pos rfl)).symm

theorem now (hvalue : value = NOW) : result = time := by
  subst hvalue
  refine (Option.some_inj.mp (h.eq_of_date (resolveSymbolicDate_now _) ?_)).symm
  intro instant heq
  cases heq
  exact h.clock

theorem offset {sign : ℤ} {amount : ℕ} {unit : OffsetUnit}
    (hvalue : relativeOffset value = some (sign, amount, unit)) :
    result = offsetInstant time sign amount unit := by
  refine (h.eq_of_clip ?_).symm
  rw [resolveSymbolicDate_offset hvalue, applyOffset_eq]

/-- What resolves is in the vocabulary. -/
theorem symbolic : value = TODAY ∨ value = NOW ∨
    ∃ sign amount unit, relativeOffset value = some (sign, amount, unit) := by
  obtain ⟨text, htext, -⟩ := h.text
  have hsymbolic : isSymbolicDate value = true := by
    by_contra hnot
    rw [(resolveSymbolicDate_eq_none_iff value _).mpr (Bool.eq_false_iff.mpr hnot)] at htext
    cases htext
  exact isSymbolicDate_cases hsymbolic

/-- An expression of months lands in its month where the month has the clock's day. -/
theorem landsInMonth_iff : LandsInMonth value time result ↔ HasDay value time := by
  refine forall_congr' fun sign => forall_congr' fun amount => imp_congr_right fun hvalue => ?_
  rw [h.offset hvalue, offsetInstant, day_of_moved, movedDay_month]

end Resolves

section
variable {value : Text} {t1 t2 r1 r2 : ℤ} (hle : t1 ≤ t2) (h1 : Resolves value t1 r1)
  (h2 : Resolves value t2 r2)
include hle h1 h2

theorem resolve_mono (hday : HasDay value t1) : r1 ≤ r2 := by
  rcases h1.symbolic with htoday | hnow | ⟨sign, amount, unit, hoffset⟩
  · rw [h1.today htoday, h2.today htoday, msPerDay]
    omega
  · rw [h1.now hnow, h2.now hnow]
    exact hle
  rw [h1.offset hoffset, h2.offset hoffset]
  cases unit with
  | day => exact Int.add_le_add_right hle _
  | week => exact Int.add_le_add_right hle _
  | month => exact movedDay_mono hle (hday sign amount hoffset)

/-- **A symbolic date is monotone in the clock and lands in the month it names** exactly where the
month has the clock's day. -/
theorem resolve_monotone_iff :
    (r1 ≤ r2 ∧ LandsInMonth value t1 r1 ∧ LandsInMonth value t2 r2) ↔
      HasDay value t1 ∧ HasDay value t2 := by
  rw [h1.landsInMonth_iff, h2.landsInMonth_iff]
  exact ⟨fun h => h.2, fun h => ⟨resolve_mono hle h1 h2 h.1, h⟩⟩

end

/-- A month before the middle of May. -/
theorem resolve_may :
    ((1776211200000 : ℤ) ≤ 1776297600000 ∧
      LandsInMonth "-1mo".toList 1778803200000 1776211200000 ∧
      LandsInMonth "-1mo".toList 1778889600000 1776297600000) := by
  have h1 : Resolves "-1mo".toList 1778803200000 1776211200000 := ⟨rfl, rfl, _, rfl, rfl⟩
  have h2 : Resolves "-1mo".toList 1778889600000 1776297600000 := ⟨rfl, rfl, _, rfl, rfl⟩
  refine (resolve_monotone_iff (by decide) h1 h2).mpr ⟨?_, ?_⟩
  · intro sign amount hvalue
    cases hvalue
    decide
  · intro sign amount hvalue
    cases hvalue
    decide

/-- February has no day 31: a month before the end of March is a later day of March than a month
before the first of April. -/
theorem resolve_march :
    Resolves "-1mo".toList 1774915200000 1772496000000 ∧
    Resolves "-1mo".toList 1775001600000 1772323200000 ∧
    (1774915200000 : ℤ) ≤ 1775001600000 ∧ ¬(1772496000000 : ℤ) ≤ 1772323200000 ∧
    ¬LandsInMonth "-1mo".toList 1774915200000 1772496000000 := by
  refine ⟨⟨rfl, rfl, _, rfl, rfl⟩, ⟨rfl, rfl, _, rfl, rfl⟩, by decide, by decide, fun h => ?_⟩
  exact absurd (h (-1) 1 rfl) (by decide)

end TaskFlow.Filter
