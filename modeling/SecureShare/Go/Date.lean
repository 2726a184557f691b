import SecureShare.Go.Text
import SecureShare.Library.Decimal
import Mathlib.Algebra.BigOperators.Group.List.Basic

/-!
# Calendar dates

`time.Parse` with the layout `2006-01-02`: four digits of the year and two each of month
and day. The result is midnight UTC in the proleptic Gregorian calendar.
-/
namespace SecureShare.Go
open Library.Decimal

def isLeap (year : ℕ) : Bool := year % 4 = 0 ∧ (year % 100 ≠ 0 ∨ year % 400 = 0)

/-- `daysIn`; months count from 1. -/
def daysIn (month year : ℕ) : ℕ :=
  if month = 2 then if isLeap year then 29 else 28
  else if month ∈ [4, 6, 9, 11] then 30 else 31

/-- Days from the start of year 0. -/
def daysBeforeYear (year : ℕ) : ℕ :=
  365 * year + (year + 3) / 4 - (year + 99) / 100 + (year + 399) / 400

/-- Days from the start of the year. -/
def daysBeforeMonth (month year : ℕ) : ℕ :=
  ((List.range (month - 1)).map fun m => daysIn (m + 1) year).sum

/-- Days since 1 January 1970. -/
def daysSinceEpoch (year month day : ℕ) : ℤ :=
  (daysBeforeYear year + daysBeforeMonth month year + (day - 1 : ℕ) : ℕ) - 719528

structure CalendarDate where
  year : ℕ
  month : ℕ
  day : ℕ
  month_pos : 0 < month
  month_le : month ≤ 12
  day_pos : 0 < day
  day_le : day ≤ daysIn month year
  deriving DecidableEq, Repr

/-- The nanoseconds of a day. -/
def nanosecondsPerDay : ℤ := 86400 * 1000000000

/-- `time.Parse("2006-01-02", value)` -/
def timeParse (value : Text) : Option ℤ := do
  let (year, value) ← readFixed 4 value
  let value ← skip '-' value
  let (month, value) ← readFixed 2 value
  if month = 0 ∨ 12 < month then none
  else do
    let value ← skip '-' value
    let (day, value) ← readFixed 2 value
    if value ≠ [] then none
    else if day = 0 ∨ daysIn month year < day then none
    else pure (daysSinceEpoch year month day * nanosecondsPerDay)

theorem daysIn_le (month year : ℕ) : daysIn month year ≤ 31 := by
  unfold daysIn
  split_ifs <;> decide

theorem daysIn_pos (month year : ℕ) : 0 < daysIn month year := by
  unfold daysIn
  split_ifs <;> decide

theorem daysBeforeYear_succ (year : ℕ) :
    daysBeforeYear (year + 1) = daysBeforeYear year + if isLeap year then 366 else 365 := by
  have hle : (year + 99) / 100 ≤ 365 * year + (year + 3) / 4 := by omega
  have hfour : (year + 1 + 3) / 4 = (year + 3) / 4 + if year % 4 = 0 then 1 else 0 := by
    split_ifs <;> omega
  have hcentury : (year + 1 + 99) / 100 = (year + 99) / 100 + if year % 100 = 0 then 1 else 0 := by
    split_ifs <;> omega
  have hcycle : (year + 1 + 399) / 400 = (year + 399) / 400 + if year % 400 = 0 then 1 else 0 := by
    split_ifs <;> omega
  have hinner : (year % 400 = 0 → year % 100 = 0) ∧ (year % 100 = 0 → year % 4 = 0) := by omega
  rw [daysBeforeYear, daysBeforeYear, hfour, hcentury, hcycle, isLeap]
  generalize (year + 3) / 4 = a at hle
  generalize (year + 99) / 100 = b at hle
  generalize (year + 399) / 400 = c
  by_cases h4 : year % 4 = 0
  · by_cases h100 : year % 100 = 0
    · by_cases h400 : year % 400 = 0
      · simp [h4, h100, h400]
        omega
      · simp [h4, h100, h400]
        omega
    · have h400 : year % 400 ≠ 0 := fun h => h100 (hinner.1 h)
      simp [h4, h100, h400]
      omega
  · have h100 : year % 100 ≠ 0 := fun h => h4 (hinner.2 h)
    have h400 : year % 400 ≠ 0 := fun h => h100 (hinner.1 h)
    simp [h4, h100, h400]
    omega

theorem daysBeforeMonth_succ {month : ℕ} (h : 0 < month) (year : ℕ) :
    daysBeforeMonth (month + 1) year = daysBeforeMonth month year + daysIn month year := by
  obtain ⟨m, rfl⟩ := Nat.exists_eq_succ_of_ne_zero h.ne'
  rw [daysBeforeMonth, Nat.add_sub_cancel, List.range_succ, List.map_append, List.sum_append,
    List.map_singleton, List.sum_singleton]
  rfl

/-- The months of a year have all its days. -/
theorem daysBeforeMonth_thirteen (year : ℕ) :
    daysBeforeMonth 13 year = if isLeap year then 366 else 365 := by
  rw [daysBeforeMonth]
  unfold daysIn
  cases isLeap year <;> decide

namespace CalendarDate
variable (d : CalendarDate)

/-- Midnight at the start of the day, in nanoseconds. -/
def midnight : ℤ := daysSinceEpoch d.year d.month d.day * nanosecondsPerDay

/-- `yyyy-mm-dd`; a year beyond 9999 has more digits. -/
def text : Text :=
  padded (max 4 (Nat.log 10 d.year + 1)) d.year ++
    ('-' :: (padded 2 d.month ++ ('-' :: padded 2 d.day)))

def next : CalendarDate :=
  if hday : d.day < daysIn d.month d.year then
    { d with day := d.day + 1, day_pos := Nat.succ_pos _, day_le := hday }
  else if hmonth : d.month < 12 then
    { year := d.year, month := d.month + 1, day := 1, month_pos := Nat.succ_pos _
      month_le := hmonth, day_pos := Nat.one_pos, day_le := daysIn_pos _ _ }
  else
    { year := d.year + 1, month := 1, day := 1, month_pos := Nat.one_pos, month_le := by decide
      day_pos := Nat.one_pos, day_le := daysIn_pos _ _ }

/-- A day has 24 hours. -/
theorem midnight_next : d.next.midnight = d.midnight + nanosecondsPerDay := by
  have hstep : daysSinceEpoch d.next.year d.next.month d.next.day =
      daysSinceEpoch d.year d.month d.day + 1 := by
    have hpos := d.day_pos
    have hle := d.day_le
    unfold next daysSinceEpoch
    split_ifs with hday hmonth
    · dsimp only
      omega
    · dsimp only
      rw [daysBeforeMonth_succ d.month_pos]
      omega
    · have htwelve : d.month = 12 := by
        have hmax := d.month_le
        omega
      have hyear := daysBeforeMonth_thirteen d.year
      rw [daysBeforeMonth_succ (by decide : 0 < 12)] at hyear
      have hfirst : daysBeforeMonth 1 (d.year + 1) = 0 := rfl
      rw [htwelve] at hday hle
      dsimp only
      rw [daysBeforeYear_succ, ← hyear, hfirst, htwelve]
      omega
  rw [midnight, midnight, hstep, add_mul, one_mul]

/-- A date of the layout is read, if nothing follows it. -/
theorem timeParse_text (h : d.year ≤ 9999) (rest : Text) :
    timeParse (d.text ++ rest) = if rest = [] then some d.midnight else none := by
  have hwidth : max 4 (Nat.log 10 d.year + 1) = 4 := by
    have hlog : Nat.log 10 d.year < 4 := Nat.log_lt_of_lt_pow' (by decide) (by omega)
    omega
  have hmonth := d.month_le
  have hday := d.day_le
  have hdays := daysIn_le d.month d.year
  have htext : d.text ++ rest = padded 4 d.year ++ ('-' :: (padded 2 d.month ++
      ('-' :: (padded 2 d.day ++ rest)))) := by
    rw [text, hwidth]
    simp
  simp only [timeParse, htext, readFixed_padded (by omega : d.year < 10 ^ 4),
    readFixed_padded (by omega : d.month < 10 ^ 2), readFixed_padded (by omega : d.day < 10 ^ 2),
    skip_cons, Option.bind_eq_bind, Option.bind_some]
  rw [if_neg (by have hpos := d.month_pos; omega)]
  by_cases hrest : rest = []
  · rw [if_neg (not_not.mpr hrest), if_pos hrest, if_neg (by have hpos := d.day_pos; omega)]
    rfl
  · rw [if_pos hrest, if_neg hrest]

/-- A longer year is not. -/
theorem timeParse_text_of_lt (h : 9999 < d.year) (rest : Text) : timeParse (d.text ++ rest) = none := by
  have hwidth : 4 < max 4 (Nat.log 10 d.year + 1) := by
    have hlog : 4 ≤ Nat.log 10 d.year := Nat.le_log_of_pow_le (by decide) (by omega)
    omega
  rw [text, List.append_assoc, timeParse]
  generalize '-' :: (padded 2 d.month ++ '-' :: padded 2 d.day) ++ rest = after
  cases hread : readFixed 4 (padded (max 4 (Nat.log 10 d.year + 1)) d.year ++ after) with
  | none => rfl
  | some read =>
    have hskip : skip '-' read.2 = none :=
      skip_of_readFixed (all_isDigit_padded _ _) (by rwa [length_padded]) (by decide) hread
    simp only [Option.bind_eq_bind, Option.bind_some, hskip, Option.bind_none]

end CalendarDate

end SecureShare.Go
