import Mathlib.Data.Int.Basic

/-!
# `Lib.Calendar` — dates and day numbers

The proleptic Gregorian calendar: dates against the number of days since the first of January of the year 0.
`Date.number` counts the days of the years, the months and the days before a date; `ofNumber` finds the year
by an estimate that is off by one at most, and the month by the days from March on.  The two are inverse
to each other (`number_ofNumber`, `ofNumber_number`).
-/

namespace Calendar

/-! ## Years -/

def IsLeap (y : Int) : Prop := y % 4 = 0 ∧ (y % 100 ≠ 0 ∨ y % 400 = 0)

instance (y : Int) : Decidable (IsLeap y) := inferInstanceAs (Decidable (_ ∧ _))

def leapDay (y : Int) : Nat := if IsLeap y then 1 else 0

def daysBeforeYear (y : Int) : Int := 365 * y + (y + 3) / 4 - (y + 99) / 100 + (y + 399) / 400

theorem daysBeforeYear_succ (y : Int) : daysBeforeYear (y + 1) = daysBeforeYear y + 365 + leapDay y := by
  unfold daysBeforeYear leapDay
  split
  · next h =>
    obtain ⟨h4, h100 | h400⟩ := h
    · omega
    · omega
  next h =>
  rw [IsLeap, not_and_or, not_or, not_not] at h
  rcases h with h4 | ⟨h100, h400⟩
  · omega
  · omega

/-- A later year is later by a year at least. -/
theorem daysBeforeYear_mono {y y'} (h : y < y') : daysBeforeYear (y + 1) ≤ daysBeforeYear y' := by
  unfold daysBeforeYear
  omega

/-- The year of a day.  Four hundred years have 146097 days. -/
def yearOf (n : Int) : Int :=
  let y := 400 * n / 146097
  if n < daysBeforeYear y then y - 1 else if daysBeforeYear (y + 1) ≤ n then y + 1 else y

theorem yearOf_spec (n : Int) : daysBeforeYear (yearOf n) ≤ n ∧ n < daysBeforeYear (yearOf n + 1) := by
  have hlow := Int.mul_ediv_self_le (x := 400 * n) (k := 146097) (by decide)
  have hhigh := Int.lt_mul_ediv_self_add (x := 400 * n) (k := 146097) (by decide)
  unfold yearOf
  generalize 400 * n / 146097 = y at *
  dsimp only
  split
  · next h =>
    rw [Int.sub_add_cancel]
    refine ⟨?_, h⟩
    unfold daysBeforeYear at *
    omega
  next h =>
  split
  · next h' =>
    refine ⟨h', ?_⟩
    unfold daysBeforeYear at *
    omega
  · next h' => exact ⟨Int.not_lt.1 h, Int.not_le.1 h'⟩

theorem yearOf_eq {n y} (hlow : daysBeforeYear y ≤ n) (hhigh : n < daysBeforeYear (y + 1)) : yearOf n = y := by
  obtain ⟨hlow', hhigh'⟩ := yearOf_spec n
  rcases Int.lt_trichotomy (yearOf n) y with h | h | h
  · have := daysBeforeYear_mono h
    omega
  · exact h
  · have := daysBeforeYear_mono h
    omega

/-! ## Months -/

/-- The days of a year before a month, the thirteenth included.  From March on five months have 153 days. -/
def daysBeforeMonth (leap m : Nat) : Nat :=
  if m ≤ 2 then 31 * (m - 1) else (153 * (m - 3) + 2) / 5 + 59 + leap

example : (List.range 13).map (fun k => daysBeforeMonth 0 (k + 1)) =
    [0, 31, 59, 90, 120, 151, 181, 212, 243, 273, 304, 334, 365] := by decide

def monthOf (leap r : Nat) : Nat :=
  if r < 31 then 1 else if r < 59 + leap then 2 else (5 * (r - 59 - leap) + 2) / 153 + 3

theorem monthOf_spec {leap r} (hr : r < 365 + leap) : (1 ≤ monthOf leap r ∧ monthOf leap r ≤ 12) ∧
      daysBeforeMonth leap (monthOf leap r) ≤ r ∧ r < daysBeforeMonth leap (monthOf leap r + 1) := by
  unfold monthOf
  split
  · next h => exact ⟨by decide, Nat.zero_le r, h⟩
  next h =>
  split
  · next h' => exact ⟨by decide, Nat.not_lt.1 h, h'⟩
  unfold daysBeforeMonth
  rw [if_neg (by omega), if_neg (by omega)]
  omega

/-- A month ends with the year at the latest. -/
theorem daysBeforeMonth_le (leap : Nat) {m} (hm : 1 ≤ m ∧ m ≤ 12) :
    daysBeforeMonth leap (m + 1) ≤ 365 + leap := by
  unfold daysBeforeMonth
  split
  · omega
  · omega

theorem monthOf_eq {leap r m} (hm : 1 ≤ m ∧ m ≤ 12) (hlow : daysBeforeMonth leap m ≤ r)
    (hhigh : r < daysBeforeMonth leap (m + 1)) : monthOf leap r = m := by
  unfold daysBeforeMonth at hlow hhigh
  unfold monthOf
  split at hlow
  · split at hhigh
    · rw [if_pos (by omega)]
      omega
    · rw [if_neg (by omega), if_pos (by omega)]
      omega
  rw [if_neg (by omega)] at hhigh
  rw [if_neg (by omega), if_neg (by omega)]
  omega

/-! ## Dates -/

structure Date where
  year : Int
  month : Nat
  day : Nat

/-- The month is one of the year and the day one of the month. -/
structure Date.Valid (d : Date) : Prop where
  month : 1 ≤ d.month ∧ d.month ≤ 12
  day : 1 ≤ d.day
  last : daysBeforeMonth (leapDay d.year) d.month + d.day ≤ daysBeforeMonth (leapDay d.year) (d.month + 1)

def Date.number (d : Date) : Int :=
  daysBeforeYear d.year + (daysBeforeMonth (leapDay d.year) d.month : Nat) + (d.day : Int) - 1

def dayOfYear (n : Int) : Nat := (n - daysBeforeYear (yearOf n)).toNat

def monthAt (n : Int) : Nat := monthOf (leapDay (yearOf n)) (dayOfYear n)

def ofNumber (n : Int) : Date :=
  ⟨yearOf n, monthAt n, dayOfYear n - daysBeforeMonth (leapDay (yearOf n)) (monthAt n) + 1⟩

theorem dayOfYear_spec (n : Int) :
    (dayOfYear n : Int) = n - daysBeforeYear (yearOf n) ∧ dayOfYear n < 365 + leapDay (yearOf n) := by
  obtain ⟨hlow, hhigh⟩ := yearOf_spec n
  rw [daysBeforeYear_succ] at hhigh
  unfold dayOfYear
  omega

theorem monthAt_spec (n : Int) : (1 ≤ monthAt n ∧ monthAt n ≤ 12) ∧
      daysBeforeMonth (leapDay (yearOf n)) (monthAt n) ≤ dayOfYear n ∧
      dayOfYear n < daysBeforeMonth (leapDay (yearOf n)) (monthAt n + 1) :=
  monthOf_spec (dayOfYear_spec n).2

theorem valid_ofNumber (n : Int) : (ofNumber n).Valid := by
  obtain ⟨hmonth, hlow, hhigh⟩ := monthAt_spec n
  refine ⟨hmonth, Nat.le_add_left 1 _, ?_⟩
  simp only [ofNumber]
  omega

theorem number_ofNumber (n : Int) : (ofNumber n).number = n := by
  obtain ⟨hday, -⟩ := dayOfYear_spec n
  obtain ⟨-, hlow, -⟩ := monthAt_spec n
  simp only [Date.number, ofNumber]
  omega

theorem ofNumber_number {d} (h : d.Valid) : ofNumber d.number = d := by
  have hend := daysBeforeMonth_le (leapDay d.year) h.month
  have hday := h.day
  have hlast := h.last
  -- the day of the year
  have hyear : yearOf d.number = d.year := by
    apply yearOf_eq
    · unfold Date.number
      omega
    rw [daysBeforeYear_succ]
    unfold Date.number
    omega
  have hrest : (d.number - daysBeforeYear d.year).toNat =
      daysBeforeMonth (leapDay d.year) d.month + d.day - 1 := by
    unfold Date.number
    omega
  have hmonth : monthOf (leapDay d.year) (daysBeforeMonth (leapDay d.year) d.month + d.day - 1) = d.month := by
    apply monthOf_eq h.month
    · omega
    · omega
  rw [ofNumber, monthAt, dayOfYear, hyear, hrest, hmonth]
  have hsame :
      daysBeforeMonth (leapDay d.year) d.month + d.day - 1 - daysBeforeMonth (leapDay d.year) d.month + 1 =
      d.day := by
    omega
  rw [hsame]

end Calendar
