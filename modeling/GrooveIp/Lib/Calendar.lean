/-!
# The Gregorian calendar

Dates of the Gregorian calendar, carried on in both directions, and the number of each date in
the count of days whose day zero is the first of January 1970. Months are counted from zero and
days of a month from one. Every day number is the number of one date, which is found by an
estimate of the year and a walk over the months.
-/

namespace GrooveIp.Lib

/-! ### Years and months -/

variable (y : Int)

/-- Every fourth year is a leap year, but of the full centuries only every fourth. -/
def isLeapYear : Bool := (y % 4 == 0 && y % 100 != 0) || y % 400 == 0

/-- The number of days of a month. -/
def monthLength (m : Nat) : Int :=
  if m = 1 then if isLeapYear y then 29 else 28
  else if m = 3 ∨ m = 5 ∨ m = 8 ∨ m = 10 then 30
  else 31

/-- The number of days of a year. -/
def yearLength : Int := if isLeapYear y then 366 else 365

/-- The days of a year before its month `m`. -/
def daysBeforeMonth (y : Int) : Nat → Int
  | 0 => 0
  | m + 1 => daysBeforeMonth y m + monthLength y m

/-- The days from the first of January of the year zero to that of the year `y`. -/
def daysBeforeYear : Int := 365 * y + (y + 3) / 4 - (y + 99) / 100 + (y + 399) / 400

theorem isLeapYear_iff : isLeapYear y = true ↔ (y % 4 = 0 ∧ y % 100 ≠ 0) ∨ y % 400 = 0 := by
  simp [isLeapYear]

theorem daysBeforeMonth_twelve : daysBeforeMonth y 12 = yearLength y := by
  simp only [daysBeforeMonth, monthLength, yearLength]
  cases isLeapYear y <;> rfl

theorem daysBeforeYear_succ : daysBeforeYear (y + 1) = daysBeforeYear y + yearLength y := by
  unfold daysBeforeYear yearLength
  split
  · next h =>
    rw [isLeapYear_iff] at h
    omega
  · next h =>
    rw [isLeapYear_iff] at h
    omega

/-! ### The number of a date -/

/-- The number of the day `d` of the month `m` of the year `y`, whether there is such a date or
not. -/
def dayNumber (m : Nat) (d : Int) : Int :=
  daysBeforeYear y + daysBeforeMonth y m + (d - 1) - 719528

/-- A date of the calendar. -/
structure Date where
  year : Int
  month : Nat
  day : Int
  month_lt : month < 12
  one_le_day : 1 ≤ day
  day_le : day ≤ monthLength year month

/-- The number of a date. -/
def Date.number (date : Date) : Int := dayNumber date.year date.month date.day

/-! ### The date of a number -/

/-- The year of a day, counted from the first of January of the year zero. The estimate is one
year wrong at most. -/
def yearOf (z : Int) : Int :=
  let y := 400 * z / 146097
  if z < daysBeforeYear y then y - 1
  else if daysBeforeYear (y + 1) ≤ z then y + 1
  else y

theorem yearOf_spec (z : Int) :
    daysBeforeYear (yearOf z) ≤ z ∧ z < daysBeforeYear (yearOf z + 1) := by
  unfold yearOf
  dsimp only
  split
  · next h =>
    rw [Int.sub_add_cancel]
    refine ⟨?_, h⟩
    unfold daysBeforeYear at *
    omega
  · next h =>
    split
    · next h' =>
      refine ⟨h', ?_⟩
      unfold daysBeforeYear at *
      omega
    · next h' => exact ⟨Int.not_lt.mp h, Int.not_le.mp h'⟩

/-- Walk over the months from `m` on, `n` of them at most, with `d` days to go. -/
def monthWalk (y : Int) : Nat → Nat → Int → Nat × Int
  | 0, m, d => (m, d)
  | n + 1, m, d => if d < monthLength y m then (m, d) else monthWalk y n (m + 1)
    (d - monthLength y m)

theorem monthWalk_spec (n m : Nat) {d : Int} (h0 : 0 ≤ d)
    (hd : daysBeforeMonth y m + d < daysBeforeMonth y (m + n + 1)) :
    (monthWalk y n m d).1 ≤ m + n ∧ 0 ≤ (monthWalk y n m d).2 ∧
      (monthWalk y n m d).2 < monthLength y (monthWalk y n m d).1 ∧
      daysBeforeMonth y (monthWalk y n m d).1 + (monthWalk y n m d).2 = daysBeforeMonth y m +
        d := by
  induction n generalizing m d with
  | zero =>
    have hlast : daysBeforeMonth y (m + 0 + 1) = daysBeforeMonth y m + monthLength y m := rfl
    refine ⟨Nat.le_refl m, h0, ?_, rfl⟩
    show d < monthLength y m
    omega
  | succ n ih =>
    unfold monthWalk
    split
    · next h => exact ⟨Nat.le_add_right m (n + 1), h0, h, rfl⟩
    · next h =>
      have hnext : daysBeforeMonth y (m + 1) = daysBeforeMonth y m + monthLength y m := rfl
      have hindex : m + (n + 1) + 1 = m + 1 + n + 1 := by omega
      rw [hindex] at hd
      obtain ⟨hmonth, hday, hlt, hsum⟩ := ih (m + 1) (d := d - monthLength y m) (by omega)
        (by omega)
      refine ⟨by omega, hday, hlt, ?_⟩
      omega

/-- The day of the year of a day, from zero. -/
def dayOfYear (z : Int) : Int := z - daysBeforeYear (yearOf z)

theorem monthWalk_dayOfYear (z : Int) : (monthWalk (yearOf z) 11 0 (dayOfYear z)).1 < 12 ∧
      0 ≤ (monthWalk (yearOf z) 11 0 (dayOfYear z)).2 ∧
      (monthWalk (yearOf z) 11 0 (dayOfYear z)).2 <
        monthLength (yearOf z) (monthWalk (yearOf z) 11 0 (dayOfYear z)).1 ∧
      daysBeforeMonth (yearOf z) (monthWalk (yearOf z) 11 0 (dayOfYear z)).1 +
        (monthWalk (yearOf z) 11 0 (dayOfYear z)).2 = dayOfYear z := by
  obtain ⟨hge, hlt⟩ := yearOf_spec z
  have htwelve := daysBeforeMonth_twelve (yearOf z)
  have hsucc := daysBeforeYear_succ (yearOf z)
  have hzero : daysBeforeMonth (yearOf z) 0 = 0 := rfl
  have hday : 0 ≤ dayOfYear z ∧ dayOfYear z < yearLength (yearOf z) := by
    unfold dayOfYear
    omega
  obtain ⟨hmonth, h⟩ := monthWalk_spec (yearOf z) 11 0 hday.1 (by
    rw [hzero, Nat.zero_add, htwelve]
    omega)
  rw [hzero, Int.zero_add] at h
  exact ⟨by omega, h⟩

/-- The date with a number. -/
def Date.ofNumber (n : Int) : Date :=
  let z := n + 719528
  let found := monthWalk (yearOf z) 11 0 (dayOfYear z)
  { year := yearOf z
    month := found.1
    day := found.2 + 1
    month_lt := (monthWalk_dayOfYear z).1
    one_le_day := Int.add_le_add_right (monthWalk_dayOfYear z).2.1 1
    day_le := (monthWalk_dayOfYear z).2.2.1 }

/-- Every day number is the number of its date. -/
theorem Date.number_ofNumber (n : Int) : (Date.ofNumber n).number = n := by
  have hwalk := (monthWalk_dayOfYear (n + 719528)).2.2.2
  have hday : dayOfYear (n + 719528) = n + 719528 - daysBeforeYear (yearOf (n + 719528)) := rfl
  simp only [Date.number, Date.ofNumber, dayNumber]
  omega

example : dayNumber 1970 0 1 = 0 ∧ dayNumber 2000 1 29 = 11016 := by decide

end GrooveIp.Lib
