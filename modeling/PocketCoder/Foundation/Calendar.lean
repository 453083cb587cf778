import Mathlib.Algebra.Order.Ring.Int
import Mathlib.Order.Monotone.Basic
import Mathlib.Tactic.Ring

/-!
The UTC calendar of `Date`: instants are milliseconds since 1970, before and
after, and the calendar is the Gregorian one in both directions.

Months are numbered through the years, month `12 * year + month` after month 0
of year 0, so that arithmetic on months is arithmetic on their numbers. The
months partition the days: `monthStart_bounds` says that `monthIndex` finds the month of
a day, `monthIndex_eq` that it is the only one.
The setters are total here. A `Date` holds the instants that are `Valid`, and
becomes invalid where a setter leaves them.
-/

namespace PocketCoder.Foundation.Calendar

def MS_PER_DAY : Int := 86400000

/-- A hundred million days. -/
def MAX_TIME : Int := 8640000000000000

/-- An instant that a `Date` can hold. -/
def Valid (t : Int) : Prop := -MAX_TIME ≤ t ∧ t ≤ MAX_TIME

instance (t : Int) : Decidable (Valid t) :=
  inferInstanceAs (Decidable (-MAX_TIME ≤ t ∧ t ≤ MAX_TIME))

def day (t : Int) : Int := t / MS_PER_DAY

def timeWithinDay (t : Int) : Int := t % MS_PER_DAY

/-! ### Years -/

def isLeap (year : Int) : Bool := year % 4 = 0 && year % 100 ≠ 0 || year % 400 = 0

/-- The days of a leap year beyond 365. -/
def leapDay (leap : Bool) : Int := if leap then 1 else 0

/-- The first day of a year. -/
def dayFromYear (year : Int) : Int :=
  365 * (year - 1970) + (year - 1969) / 4 - (year - 1901) / 100 + (year - 1601) / 400

/-- The year of a day: the year that the mean length gives, or one beside it. -/
def yearOf (d : Int) : Int :=
  let guess := 400 * d / 146097 + 1970
  if dayFromYear (guess + 1) ≤ d then guess + 1
  else if dayFromYear guess ≤ d then guess
  else guess - 1

theorem leapDay_isLeap (year : Int) :
    leapDay (isLeap year) = (year - 1968) / 4 - (year - 1969) / 4 - ((year - 1900) / 100 -
      (year - 1901) / 100) + ((year - 1600) / 400 - (year - 1601) / 400) := by
  rw [leapDay, isLeap]
  simp only [Bool.or_eq_true, Bool.and_eq_true, decide_eq_true_eq]
  split_ifs <;> omega

theorem dayFromYear_succ (year : Int) :
    dayFromYear (year + 1) = dayFromYear year + 365 + leapDay (isLeap year) := by
  rw [leapDay_isLeap, dayFromYear, dayFromYear]
  have h₁ : year + 1 - 1969 = year - 1968 := by ring
  have h₂ : year + 1 - 1901 = year - 1900 := by ring
  have h₃ : year + 1 - 1601 = year - 1600 := by ring
  rw [h₁, h₂, h₃]
  ring

theorem dayFromYear_yearOf (d : Int) :
    dayFromYear (yearOf d) ≤ d ∧ d < dayFromYear (yearOf d + 1) := by
  rw [yearOf]
  have hguess : 146097 * (400 * d / 146097) ≤ 400 * d ∧
      400 * d < 146097 * (400 * d / 146097) + 146097 := by omega
  generalize 400 * d / 146097 = n at hguess
  split_ifs with hnext hsame
  · refine ⟨hnext, ?_⟩
    simp only [dayFromYear] at hnext ⊢
    omega
  · exact ⟨hsame, not_le.mp hnext⟩
  · have hback : n + 1970 - 1 + 1 = n + 1970 := by ring
    rw [hback]
    refine ⟨?_, not_le.mp hsame⟩
    simp only [dayFromYear] at hsame ⊢
    omega

/-! ### Months -/

/-- The first day of a month within its year. From March on, five months have
153 days. -/
def daysBeforeMonth (leap : Bool) (month : Int) : Int :=
  if month ≤ 1 then 31 * month else 59 + leapDay leap + (153 * (month - 2) + 2) / 5

/-- The month of a day of the year. -/
def monthWithinYear (leap : Bool) (dayWithinYear : Int) : Int :=
  if dayWithinYear < 59 + leapDay leap then dayWithinYear / 31
  else 2 + (5 * (dayWithinYear - 59 - leapDay leap) + 2) / 153

example : [0, 1, 2, 3, 4, 5, 6, 7, 8, 9, 10, 11, 12].map (daysBeforeMonth false) =
    [0, 31, 59, 90, 120, 151, 181, 212, 243, 273, 304, 334, 365] := rfl

def monthOf (d : Int) : Int :=
  monthWithinYear (isLeap (yearOf d)) (d - dayFromYear (yearOf d))

/-- The number of the month of a day. -/
def monthIndex (d : Int) : Int := 12 * yearOf d + monthOf d

/-- The first day of a month. -/
def monthStart (m : Int) : Int :=
  dayFromYear (m / 12) + daysBeforeMonth (isLeap (m / 12)) (m % 12)

def monthLength (m : Int) : Int := monthStart (m + 1) - monthStart m

/-- The length of a month of a year. -/
def daysInMonth (leap : Bool) (month : Int) : Int :=
  daysBeforeMonth leap (month + 1) - daysBeforeMonth leap month

theorem leapDay_cases (leap : Bool) : leapDay leap = 0 ∨ leapDay leap = 1 := by
  cases leap
  · exact .inl rfl
  · exact .inr rfl

theorem monthWithinYear_spec (leap : Bool) {d : Int} (h : 0 ≤ d) (h' : d < 365 + leapDay leap) :
    (0 ≤ monthWithinYear leap d ∧ monthWithinYear leap d ≤ 11) ∧
      daysBeforeMonth leap (monthWithinYear leap d) ≤ d ∧
      d < daysBeforeMonth leap (monthWithinYear leap d + 1) := by
  have hleap := leapDay_cases leap
  simp only [monthWithinYear, daysBeforeMonth]
  split_ifs <;> omega

theorem daysInMonth_bounds (leap : Bool) {month : Int} (h : 0 ≤ month) (h' : month ≤ 11) :
    28 ≤ daysInMonth leap month ∧ daysInMonth leap month ≤ 31 := by
  have hleap := leapDay_cases leap
  simp only [daysInMonth, daysBeforeMonth]
  split_ifs <;> omega

theorem daysInMonth_mono {leap leap' : Bool} (hleap : leapDay leap ≤ leapDay leap') (month : Int) :
    daysInMonth leap month ≤ daysInMonth leap' month := by
  simp only [daysInMonth, daysBeforeMonth]
  split_ifs <;> omega

theorem monthStart_of (year month : Int) (h : 0 ≤ month) (h' : month ≤ 11) :
    monthStart (12 * year + month) = dayFromYear year + daysBeforeMonth (isLeap year) month := by
  have hyear : (12 * year + month) / 12 = year := by omega
  have hmonth : (12 * year + month) % 12 = month := by omega
  rw [monthStart, hyear, hmonth]

theorem monthLength_eq (m : Int) : monthLength m = daysInMonth (isLeap (m / 12)) (m % 12) := by
  rw [monthLength, daysInMonth]
  by_cases hlast : m % 12 = 11
  · have hnext : m + 1 = 12 * (m / 12 + 1) + 0 := by omega
    rw [hnext, monthStart_of _ _ (by decide) (by decide), monthStart, hlast, dayFromYear_succ]
    have htwelve : daysBeforeMonth (isLeap (m / 12)) (11 + 1) = 59 + leapDay (isLeap (m / 12)) + 306 :=
      rfl
    have hzero : daysBeforeMonth (isLeap (m / 12 + 1)) 0 = 0 := rfl
    rw [htwelve, hzero]
    ring
  · have hnext : m + 1 = 12 * (m / 12) + (m % 12 + 1) := by omega
    rw [hnext, monthStart_of _ _ (by omega) (by omega), monthStart]
    ring

theorem monthLength_bounds (m : Int) : 28 ≤ monthLength m ∧ monthLength m ≤ 31 := by
  rw [monthLength_eq]
  exact daysInMonth_bounds _ (by omega) (by omega)

theorem monthStart_lt {m n : Int} : monthStart m < monthStart n ↔ m < n := by
  refine (strictMono_int_of_lt_succ fun m => ?_).lt_iff_lt
  have h := (monthLength_bounds m).1
  rw [monthLength] at h
  omega

theorem monthStart_le {m n : Int} : monthStart m ≤ monthStart n ↔ m ≤ n := by
  rw [← not_lt, monthStart_lt, not_lt]

/-- The month of a day starts on that day or before, and ends on it or after. -/
theorem monthStart_bounds (d : Int) :
    monthStart (monthIndex d) ≤ d ∧ d < monthStart (monthIndex d + 1) := by
  obtain ⟨hmin, hmax⟩ := dayFromYear_yearOf d
  rw [dayFromYear_succ] at hmax
  obtain ⟨⟨hlow, hhigh⟩, hstart, hend⟩ := @monthWithinYear_spec (isLeap (yearOf d))
    (d - dayFromYear (yearOf d)) (by omega) (by omega)
  rw [← monthOf] at hlow hhigh hstart hend
  have hlength := monthLength_eq (monthIndex d)
  have hyear : monthIndex d / 12 = yearOf d := by rw [monthIndex]; omega
  have hmonth : monthIndex d % 12 = monthOf d := by rw [monthIndex]; omega
  have hfirst : monthStart (monthIndex d) =
      dayFromYear (yearOf d) + daysBeforeMonth (isLeap (yearOf d)) (monthOf d) := by
    rw [monthStart, hyear, hmonth]
  rw [monthLength, hyear, hmonth, daysInMonth] at hlength
  omega

/-- A day is in one month. -/
theorem monthIndex_eq {m d : Int} (h : monthStart m ≤ d) (h' : d < monthStart (m + 1)) :
    monthIndex d = m := by
  obtain ⟨hstart, hend⟩ := monthStart_bounds d
  have hlow := monthStart_lt.mp (hstart.trans_lt h')
  have hhigh := monthStart_lt.mp (h.trans_lt hend)
  omega

/-! ### Dates -/

def makeDay (year month date : Int) : Int := monthStart (12 * year + month) + date - 1

def makeDate (day time : Int) : Int := day * MS_PER_DAY + time

/-- `Date.UTC`, for which the years from 0 to 99 are those of the last century. -/
def dateUTC (year month date : Int) : Int :=
  makeDate (makeDay (if 0 ≤ year ∧ year ≤ 99 then 1900 + year else year) month date) 0

def getUTCFullYear (t : Int) : Int := yearOf (day t)

def getUTCMonth (t : Int) : Int := monthOf (day t)

def getUTCDate (t : Int) : Int := day t - monthStart (monthIndex (day t)) + 1

def setUTCDate (t date : Int) : Int :=
  makeDate (makeDay (getUTCFullYear t) (getUTCMonth t) date) (timeWithinDay t)

def setUTCMonth (t month : Int) : Int :=
  makeDate (makeDay (getUTCFullYear t) month (getUTCDate t)) (timeWithinDay t)

/-- The month of an instant. -/
def monthOfDate (t : Int) : Int := monthIndex (day t)

theorem timeWithinDay_bounds (t : Int) : 0 ≤ timeWithinDay t ∧ timeWithinDay t < MS_PER_DAY :=
  ⟨Int.emod_nonneg t (by decide), Int.emod_lt_of_pos t (by decide)⟩

theorem day_makeDate (d : Int) {time : Int} (h : 0 ≤ time) (h' : time < MS_PER_DAY) :
    day (makeDate d time) = d := by
  rw [day, makeDate]
  rw [MS_PER_DAY] at *
  omega

theorem timeWithinDay_makeDate (d : Int) {time : Int} (h : 0 ≤ time) (h' : time < MS_PER_DAY) :
    timeWithinDay (makeDate d time) = time := by
  rw [timeWithinDay, makeDate]
  rw [MS_PER_DAY] at *
  omega

theorem getUTCDate_bounds (t : Int) : 1 ≤ getUTCDate t ∧ getUTCDate t ≤ monthLength (monthOfDate t) := by
  have h := monthStart_bounds (day t)
  rw [getUTCDate, monthLength, monthOfDate]
  omega

/-- An instant is made of its month, date and time. -/
theorem eq_makeDate (t : Int) :
    t = makeDate (monthStart (monthOfDate t) + getUTCDate t - 1) (timeWithinDay t) := by
  have hday : monthStart (monthOfDate t) + getUTCDate t - 1 = day t := by
    rw [getUTCDate, monthOfDate]
    ring
  rw [hday, makeDate, day, timeWithinDay, MS_PER_DAY]
  omega

/-- The month and the date of an instant that is made of them. -/
theorem date_makeDate {m date time : Int} (hdate : 1 ≤ date) (hlast : date ≤ monthLength m)
    (htime : 0 ≤ time) (htime' : time < MS_PER_DAY) :
    monthOfDate (makeDate (monthStart m + date - 1) time) = m ∧
      getUTCDate (makeDate (monthStart m + date - 1) time) = date := by
  have hindex : monthIndex (monthStart m + date - 1) = m := by
    rw [monthLength] at hlast
    exact monthIndex_eq (by omega) (by omega)
  rw [monthOfDate, getUTCDate, day_makeDate _ htime htime', hindex]
  exact ⟨rfl, by ring⟩

theorem monthOf_bounds (d : Int) : 0 ≤ monthOf d ∧ monthOf d ≤ 11 := by
  obtain ⟨hmin, hmax⟩ := dayFromYear_yearOf d
  rw [dayFromYear_succ] at hmax
  rw [monthOf]
  exact (monthWithinYear_spec _ (by omega) (by omega)).1

theorem getUTCFullYear_eq (t : Int) : getUTCFullYear t = monthOfDate t / 12 := by
  have h := monthOf_bounds (day t)
  rw [getUTCFullYear, monthOfDate, monthIndex]
  omega

theorem getUTCMonth_eq (t : Int) : getUTCMonth t = monthOfDate t % 12 := by
  have h := monthOf_bounds (day t)
  rw [getUTCMonth, monthOfDate, monthIndex]
  omega

theorem makeDay_eq (t month date : Int) :
    makeDay (getUTCFullYear t) (getUTCMonth t + month) date =
      monthStart (monthOfDate t + month) + date - 1 := by
  rw [makeDay, monthOfDate, monthIndex, getUTCFullYear, getUTCMonth, Int.add_assoc]

theorem setUTCDate_eq (t date : Int) :
    setUTCDate t date = makeDate (monthStart (monthOfDate t) + date - 1) (timeWithinDay t) := by
  have h := makeDay_eq t 0 date
  rw [Int.add_zero, Int.add_zero] at h
  rw [setUTCDate, h]

theorem setUTCMonth_eq (t months : Int) :
    setUTCMonth t (getUTCMonth t - months) =
      makeDate (monthStart (monthOfDate t - months) + getUTCDate t - 1) (timeWithinDay t) := by
  rw [setUTCMonth, Int.sub_eq_add_neg, makeDay_eq, ← Int.sub_eq_add_neg]

/-- Day 0 of the next month is the last day of the month. -/
theorem getUTCDate_dateUTC (year : Int) {month : Int} (h : 0 ≤ month) (h' : month ≤ 11) :
    getUTCDate (dateUTC year (month + 1) 0) =
      daysInMonth (isLeap (if 0 ≤ year ∧ year ≤ 99 then 1900 + year else year)) month := by
  rw [dateUTC, makeDay]
  generalize (if 0 ≤ year ∧ year ≤ 99 then 1900 + year else year) = full
  have hlength := monthLength_eq (12 * full + month)
  have hbounds := monthLength_bounds (12 * full + month)
  have hyear : (12 * full + month) / 12 = full := by omega
  have hmonth : (12 * full + month) % 12 = month := by omega
  rw [hyear, hmonth] at hlength
  have hlast : monthStart (12 * full + (month + 1)) + 0 - 1 =
      monthStart (12 * full + month) + monthLength (12 * full + month) - 1 := by
    rw [monthLength, ← Int.add_assoc]
    ring
  rw [hlast, (date_makeDate (by omega) le_rfl le_rfl (by decide)).2, hlength]

end PocketCoder.Foundation.Calendar
