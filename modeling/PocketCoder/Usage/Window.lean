import PocketCoder.Foundation.Calendar

/-!
The buckets of usage samples and the start of their retention
(`manager/src/usage/window.ts`).

`retainedSince_eq` says what the setters of `Date` compute: thirteen months
back, on the same date or on the last one of the month, at the same time of
day. Two dates that the end of a short month holds back have one cut-off date,
and then the time of day decides: `retainedSince_le_iff`.
-/

namespace PocketCoder.Usage

open PocketCoder.Foundation.Calendar

def SAMPLE_INTERVAL_MS : Int := 60000

def sampleBucket (sampledAt : Int) : Int := sampledAt / SAMPLE_INTERVAL_MS * SAMPLE_INTERVAL_MS

/-- The last day of a month, which is day 0 of the next. -/
def lastDay (year month : Int) : Int := getUTCDate (dateUTC year (month + 1) 0)

def retainedSince (now : Int) : Int :=
  let cutoff := setUTCDate now 1
  let cutoff := setUTCMonth cutoff (getUTCMonth cutoff - 13)
  setUTCDate cutoff
    (min (getUTCDate now) (lastDay (getUTCFullYear cutoff) (getUTCMonth cutoff)))

/-- Noon on 31 March 2025 goes back to noon on 29 February 2024. -/
example : retainedSince 1743422400000 = 1709208000000 := by decide +kernel

/-- The last day of the month thirteen months before. -/
def retainedLastDay (now : Int) : Int :=
  lastDay ((monthOfDate now - 13) / 12) ((monthOfDate now - 13) % 12)

theorem lastDay_bounds (m : Int) :
    1 ≤ lastDay (m / 12) (m % 12) ∧ lastDay (m / 12) (m % 12) ≤ monthLength m := by
  have hlow : 0 ≤ m % 12 := by omega
  have hhigh : m % 12 ≤ 11 := by omega
  rw [lastDay, getUTCDate_dateUTC _ hlow hhigh, monthLength_eq]
  refine ⟨(daysInMonth_bounds _ hlow hhigh).1.trans' (by decide), daysInMonth_mono ?_ _⟩
  -- a year of the last century is only a leap year when its number in the first is one
  rw [leapDay_isLeap, leapDay_isLeap]
  split_ifs <;> omega

theorem retainedSince_eq (now : Int) : retainedSince now =
    makeDate (monthStart (monthOfDate now - 13) + min (getUTCDate now) (retainedLastDay now) - 1)
      (timeWithinDay now) := by
  obtain ⟨htime, htime'⟩ := timeWithinDay_bounds now
  have hfirst : ∀ m, monthOfDate (makeDate (monthStart m + 1 - 1) (timeWithinDay now)) = m ∧
      getUTCDate (makeDate (monthStart m + 1 - 1) (timeWithinDay now)) = 1 := by
    intro m
    have hlength := (monthLength_bounds m).1
    exact date_makeDate le_rfl (by omega) htime htime'
  obtain ⟨hmonth, hdate⟩ := hfirst (monthOfDate now)
  obtain ⟨hmonth', -⟩ := hfirst (monthOfDate now - 13)
  rw [retainedSince, setUTCDate_eq now, setUTCMonth_eq, hmonth, hdate,
    timeWithinDay_makeDate _ htime htime', setUTCDate_eq, hmonth',
    timeWithinDay_makeDate _ htime htime', getUTCFullYear_eq, getUTCMonth_eq, hmonth', retainedLastDay]

/-- Thirteen months are no more than 403 days. -/
theorem monthStart_retained (m : Int) :
    monthStart m ≤ monthStart (m - 13) + 403 ∧ monthStart (m - 13) ≤ monthStart m := by
  have hstep (k : Int) : monthStart (k + 1) ≤ monthStart k + 31 := by
    have hlength := (monthLength_bounds k).2
    rw [monthLength] at hlength
    omega
  have hmonths (n : ℕ) : monthStart (m - 13 + n) ≤ monthStart (m - 13) + 31 * n := by
    induction n with
    | zero => simp
    | succ n ih =>
        have h := hstep (m - 13 + n)
        rw [Nat.cast_succ, ← Int.add_assoc]
        omega
  have hlast := hmonths 13
  have hthirteen : m - 13 + ((13 : ℕ) : Int) = m := by
    rw [Nat.cast_ofNat]
    ring
  rw [hthirteen] at hlast
  exact ⟨by omega, monthStart_le.mpr (by omega)⟩

/-- From 434 days after the first instant of a `Date` on, no setter leaves the
valid ones. -/
theorem retainedSince_valid (h : Valid now) (hstart : Valid (now - 434 * MS_PER_DAY)) :
    Valid (setUTCDate now 1) ∧
      Valid (setUTCMonth (setUTCDate now 1) (getUTCMonth (setUTCDate now 1) - 13)) ∧
      Valid (retainedSince now) := by
  obtain ⟨htime, htime'⟩ := timeWithinDay_bounds now
  obtain ⟨hdate, hdate'⟩ := getUTCDate_bounds now
  obtain ⟨hlast, -⟩ := lastDay_bounds (monthOfDate now - 13)
  rw [← retainedLastDay] at hlast
  obtain ⟨hmonths, hmonths'⟩ := monthStart_retained (monthOfDate now)
  have hlength := (monthLength_bounds (monthOfDate now)).2
  have hmade := eq_makeDate now
  have hfirst := @date_makeDate (monthOfDate now) 1 (timeWithinDay now) le_rfl (by omega) htime htime'
  rw [retainedSince_eq, setUTCMonth_eq, setUTCDate_eq, hfirst.1, hfirst.2,
    timeWithinDay_makeDate _ htime htime']
  simp only [Valid, makeDate, MS_PER_DAY, MAX_TIME] at *
  refine ⟨?_, ?_, ?_⟩ <;> omega

/-- Two dates of a month that are both held back to the end of the shorter month
thirteen months before, the later one at an earlier time of day. -/
structure HeldBack (t t' : Int) : Prop where
  year : getUTCFullYear t = getUTCFullYear t'
  month : getUTCMonth t = getUTCMonth t'
  date : getUTCDate t < getUTCDate t'
  last : retainedLastDay t ≤ getUTCDate t
  time : timeWithinDay t' < timeWithinDay t

instance (t t' : Int) : Decidable (HeldBack t t') :=
  decidable_of_iff
    (getUTCFullYear t = getUTCFullYear t' ∧ getUTCMonth t = getUTCMonth t' ∧
      getUTCDate t < getUTCDate t' ∧ retainedLastDay t ≤ getUTCDate t ∧
      timeWithinDay t' < timeWithinDay t)
    ⟨fun ⟨h₁, h₂, h₃, h₄, h₅⟩ => ⟨h₁, h₂, h₃, h₄, h₅⟩,
      fun ⟨h₁, h₂, h₃, h₄, h₅⟩ => ⟨h₁, h₂, h₃, h₄, h₅⟩⟩

/-- The cut-off keeps the order of two instants unless the end of a month holds
both back. -/
theorem retainedSince_le_iff {t t' : Int} (h : t ≤ t') :
    retainedSince t ≤ retainedSince t' ↔ ¬HeldBack t t' := by
  obtain ⟨htime, htime'⟩ := timeWithinDay_bounds t
  obtain ⟨hother, hother'⟩ := timeWithinDay_bounds t'
  obtain ⟨hdate, hdate'⟩ := getUTCDate_bounds t
  obtain ⟨hdateOther, -⟩ := getUTCDate_bounds t'
  obtain ⟨hlast, hlast'⟩ := lastDay_bounds (monthOfDate t - 13)
  obtain ⟨hlastOther, -⟩ := lastDay_bounds (monthOfDate t' - 13)
  have hyear : monthOfDate t = 12 * getUTCFullYear t + getUTCMonth t := rfl
  have hyear' : monthOfDate t' = 12 * getUTCFullYear t' + getUTCMonth t' := rfl
  have hmade := eq_makeDate t
  have hmade' := eq_makeDate t'
  rw [← retainedLastDay] at hlast hlast' hlastOther
  rw [retainedSince_eq, retainedSince_eq]
  rcases lt_trichotomy (monthOfDate t) (monthOfDate t') with hlt | heq | hgt
  · -- the cut-offs are in different months
    have hmonths : monthStart (monthOfDate t - 13 + 1) ≤ monthStart (monthOfDate t' - 13) :=
      monthStart_le.mpr (by omega)
    have hend : monthStart (monthOfDate t - 13) + monthLength (monthOfDate t - 13) =
        monthStart (monthOfDate t - 13 + 1) := by
      rw [monthLength]
      ring
    refine iff_of_true ?_ fun hheld => ?_
    · simp only [makeDate, MS_PER_DAY] at htime' hother' ⊢
      omega
    · have hsame := hheld.year
      have hsame' := hheld.month
      omega
  -- in the same month the days are cut at the same last day
  · have hlastSame : retainedLastDay t' = retainedLastDay t := by
      rw [retainedLastDay, retainedLastDay, heq]
    rw [hlastSame, ← heq]
    rw [← heq] at hmade'
    constructor
    · rintro hle ⟨-, -, hdates, hbefore, htimes⟩
      rw [min_eq_right hbefore, min_eq_right (hbefore.trans hdates.le)] at hle
      simp only [makeDate, MS_PER_DAY] at hle
      omega
    · intro hheld
      by_contra hgt
      refine hheld ⟨?_, ?_, ?_, ?_, ?_⟩
      · rw [getUTCFullYear_eq, getUTCFullYear_eq, heq]
      · rw [getUTCMonth_eq, getUTCMonth_eq, heq]
      all_goals
        simp only [makeDate, MS_PER_DAY] at hmade hmade' hgt htime' hother'
        omega
  -- a later instant is in no earlier month
  · exfalso
    have hmonths : monthStart (monthOfDate t' + 1) ≤ monthStart (monthOfDate t) :=
      monthStart_le.mpr (by omega)
    obtain ⟨-, hdateOther'⟩ := getUTCDate_bounds t'
    rw [monthLength] at hdateOther'
    simp only [makeDate, MS_PER_DAY] at hmade hmade' htime' hother'
    omega

end PocketCoder.Usage
