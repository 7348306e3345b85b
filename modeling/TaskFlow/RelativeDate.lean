import TaskFlow.FilterAst

/-! # Symbolic dates

`@today`, `@now` and the signed offsets `-7d`, `+3w`, `-2mo` stay symbolic in a
tree and are resolved against a clock when it is run.  A `Date` is its time value,
in milliseconds since the epoch, or none for an invalid one; days and months are
those of the proleptic Gregorian calendar, in UTC.

`resolveSymbolicDate_eq_none_iff` says that what is resolved is exactly what
`isSymbolicDate` accepts.
-/
namespace TaskFlow.Filter

/-! ### Dates -/

abbrev Date := Option ℤ

def msPerDay : ℤ := 86400000

/-- A time value beyond a hundred million days of the epoch is invalid. -/
def timeClip (time : ℤ) : Date := if |time| ≤ 8640000000000000 then some time else none

/-- The day number of a day of a month, counted from March on. -/
def daysFromCivil (year month day : ℤ) : ℤ :=
  let y := if month ≤ 2 then year - 1 else year
  let era := y / 400
  let yearOfEra := y % 400
  let dayOfYear := (153 * ((month + 9) % 12) + 2) / 5 + day - 1
  let dayOfEra := yearOfEra * 365 + yearOfEra / 4 - yearOfEra / 100 + dayOfYear
  era * 146097 + dayOfEra - 719468

/-- The year, the month and the day of a day number. -/
def civilFromDays (days : ℤ) : ℤ × ℤ × ℤ :=
  let z := days + 719468
  let era := z / 146097
  let dayOfEra := z % 146097
  let yearOfEra := (dayOfEra - dayOfEra / 1460 + dayOfEra / 36524 - dayOfEra / 146096) / 365
  let dayOfYear := dayOfEra - (365 * yearOfEra + yearOfEra / 4 - yearOfEra / 100)
  let shifted := (5 * dayOfYear + 2) / 153
  let month := if shifted < 10 then shifted + 3 else shifted - 9
  let year := yearOfEra + era * 400
  (if month ≤ 2 then year + 1 else year, month, dayOfYear - (153 * shifted + 2) / 5 + 1)

/-- The day number of a day in a month that may lie outside its year; the months
count from zero. -/
def makeDay (year month day : ℤ) : ℤ := daysFromCivil (year + month / 12) (month % 12 + 1) 1 + day - 1

/-- The time value moved to another day, at the same time of the day. -/
def makeDate (day time : ℤ) : Date := timeClip (day * msPerDay + time % msPerDay)

/-- `setUTCHours(0, 0, 0, 0)`. -/
def startOfDay (time : ℤ) : Date := timeClip (time / msPerDay * msPerDay)

/-- `setUTCDate(getUTCDate() + days)`. -/
def addDays (time days : ℤ) : Date :=
  let (year, month, day) := civilFromDays (time / msPerDay)
  makeDate (makeDay year (month - 1) (day + days)) time

/-- `setUTCMonth(getUTCMonth() + months)`. -/
def addMonths (time months : ℤ) : Date :=
  -- a day past the end of its month runs over into the next
  let (year, month, day) := civilFromDays (time / msPerDay)
  makeDate (makeDay year (month - 1 + months) day) time

/-- A number with at least `width` digits. -/
def padStart (width n : ℕ) : Text :=
  let digits := Nat.toDigits 10 n
  List.replicate (width - digits.length) '0' ++ digits

def isoYear (year : ℤ) : Text :=
  if 0 ≤ year ∧ year ≤ 9999 then padStart 4 year.toNat
  else (if year < 0 then '-' else '+') :: padStart 6 year.natAbs

/-- What `toISOString` throws on an invalid date. -/
inductive Thrown where
  | rangeError
  deriving DecidableEq

def toISOString : Date → Except Thrown Text
  | none => .error .rangeError
  | some time =>
    let (year, month, day) := civilFromDays (time / msPerDay)
    let ms := (time % msPerDay).toNat
    .ok (isoYear year ++ '-' :: padStart 2 month.toNat ++ '-' :: padStart 2 day.toNat ++
      'T' :: padStart 2 (ms / 3600000) ++ ':' :: padStart 2 (ms / 60000 % 60) ++
      ':' :: padStart 2 (ms / 1000 % 60) ++ '.' :: padStart 3 (ms % 1000) ++ ['Z'])

/-! ### The vocabulary -/

def TODAY : Text := "@today".toList

def NOW : Text := "@now".toList

inductive OffsetUnit where
  | day | week | month
  deriving DecidableEq

def OffsetUnit.ofText : Text → Option OffsetUnit
  | ['d'] => some .day
  | ['w'] => some .week
  | ['m', 'o'] => some .month
  | _ => none

/-- The sign of an offset. -/
def offsetSign : Char → Option ℤ
  | '+' => some 1
  | '-' => some (-1)
  | _ => none

/-- A sign, digits and a unit, and nothing else. -/
def relativeOffset : Text → Option (ℤ × ℕ × OffsetUnit)
  | [] => none
  | c :: rest =>
    match offsetSign c, rest.takeWhile Char.isDigit,
      OffsetUnit.ofText (rest.dropWhile Char.isDigit) with
    | some sign, d :: ds, some unit => some (sign, Nat.ofDigitChars 10 (d :: ds) 0, unit)
    | _, _, _ => none

def isSymbolicDate (value : Text) : Bool :=
  value == TODAY || value == NOW || (relativeOffset value).isSome

/-- The date an offset from the clock falls on; an invalid clock stays invalid. -/
def applyOffset (now : Date) (sign : ℤ) (amount : ℕ) : OffsetUnit → Date
  | .day => now.bind fun time => addDays time (sign * amount)
  | .week => now.bind fun time => addDays time (sign * amount * 7)
  | .month => now.bind fun time => addMonths time (sign * amount)

/-- The timestamp of a symbolic date, or nothing for any other text. -/
def resolveSymbolicDate (value : Text) (now : Date) : Except Thrown (Option Text) :=
  if value = TODAY then some <$> toISOString (now.bind startOfDay)
  else if value = NOW then some <$> toISOString now
  else
    match relativeOffset value with
    | none => .ok none
    | some (sign, amount, unit) => some <$> toISOString (applyOffset now sign amount unit)

theorem map_some_ne_ok_none {α : Type} (x : Except Thrown α) :
    (some <$> x : Except Thrown (Option α)) ≠ .ok none := by
  cases x <;> simp [Functor.map, Except.map]

/-- **What is resolved is what the vocabulary holds**, whatever the clock. -/
theorem resolveSymbolicDate_eq_none_iff (value : Text) (now : Date) :
    resolveSymbolicDate value now = .ok none ↔ isSymbolicDate value = false := by
  unfold resolveSymbolicDate isSymbolicDate
  by_cases htoday : value = TODAY
  · simp [htoday, map_some_ne_ok_none]
  rw [if_neg htoday, beq_eq_false_iff_ne.mpr htoday, Bool.false_or]
  by_cases hnow : value = NOW
  · simp [hnow, map_some_ne_ok_none]
  rw [if_neg hnow, beq_eq_false_iff_ne.mpr hnow, Bool.false_or]
  match relativeOffset value with
  | none => simp
  | some (sign, amount, unit) => simp [map_some_ne_ok_none]

example : addMonths 1785283200000 (-1) = some 1782691200000 := by decide +kernel

end TaskFlow.Filter
