/-!
# Dates

Dates of the proleptic Gregorian calendar, with a year zero and negative years before it. That month
and day exist is part of the type. `next` and `prev` step over the ends of months and years;
`ofEpochDay?` counts days from the first of January 1970.
-/

namespace ListQuery.Calendar

/-- Every fourth year, but of the full centuries only every fourth. -/
def isLeap (year : Int) : Bool := year % 4 == 0 && (year % 100 != 0 || year % 400 == 0)

/-- The length of a month. -/
def daysIn (year : Int) (month : Nat) : Nat :=
  match month with
  | 2 => if isLeap year then 29 else 28
  | 4 | 6 | 9 | 11 => 30
  | _ => 31

theorem one_le_daysIn (year : Int) (month : Nat) : 1 ≤ daysIn year month := by
  unfold daysIn; split <;> (try split) <;> decide

theorem daysIn_le (year : Int) (month : Nat) : daysIn year month ≤ 31 := by
  unfold daysIn; split <;> (try split) <;> decide

/-- A day of the calendar. -/
@[ext] structure Date where
  year : Int
  month : Nat
  day : Nat
  one_le_month : 1 ≤ month
  month_le : month ≤ 12
  one_le_day : 1 ≤ day
  day_le : day ≤ daysIn year month
deriving DecidableEq

namespace Date

/-- The years that dates are read and computed in. -/
def yearInRange (year : Int) : Bool := -262143 ≤ year && year ≤ 262142

/-- The date with these parts, if the calendar has it and its year is in range. -/
def ofParts? (year : Int) (month day : Nat) : Option Date :=
  if h : 1 ≤ month ∧ month ≤ 12 ∧ 1 ≤ day ∧ day ≤ daysIn year month then
    if yearInRange year then some ⟨year, month, day, h.1, h.2.1, h.2.2.1, h.2.2.2⟩ else none
  else none

theorem ofParts?_self {d : Date} (h : yearInRange d.year = true) :
    ofParts? d.year d.month d.day = some d := by
  rw [ofParts?, dif_pos ⟨d.one_le_month, d.month_le, d.one_le_day, d.day_le⟩, if_pos h]

theorem year_of_ofParts? {year : Int} {month day : Nat} {d : Date}
    (h : ofParts? year month day = some d) : d.year = year := by
  rw [ofParts?] at h
  split at h
  · split at h
    · obtain rfl := Option.some.inj h
      rfl
    · cases h
  · cases h

/-- The day after. -/
def next (d : Date) : Date :=
  if h : d.day < daysIn d.year d.month then
    { d with day := d.day + 1, one_le_day := by omega, day_le := h }
  else if hm : d.month < 12 then
    ⟨d.year, d.month + 1, 1, by omega, hm, by omega, one_le_daysIn _ _⟩
  else
    ⟨d.year + 1, 1, 1, by omega, by omega, by omega, one_le_daysIn _ _⟩

/-- The day before. -/
def prev (d : Date) : Date :=
  if h : 1 < d.day then
    { d with day := d.day - 1, one_le_day := by omega, day_le := by have := d.day_le; omega }
  else if hm : 1 < d.month then
    ⟨d.year, d.month - 1, daysIn d.year (d.month - 1), by omega,
      by have := d.month_le; omega, one_le_daysIn _ _, by omega⟩
  else
    ⟨d.year - 1, 12, 31, by omega, by omega, by omega, by simp [daysIn]⟩

/--
The date a number of days after the first of January 1970. Years are counted from March, so that the
leap day is the last of its year: 400 years have 146097 days, and the five months from March on, as
again the five from August on, have 153.
-/
def ofEpochDay? (day : Int) : Option Date :=
  let z := day + 719468
  let cycle := z / 146097
  let dayOfCycle := (z % 146097).toNat
  let yearOfCycle :=
    (dayOfCycle - dayOfCycle / 1460 + dayOfCycle / 36524 - dayOfCycle / 146096) / 365
  let dayOfYear := dayOfCycle - (365 * yearOfCycle + yearOfCycle / 4 - yearOfCycle / 100)
  let monthFromMarch := (5 * dayOfYear + 2) / 153
  let dayOfMonth := dayOfYear - (153 * monthFromMarch + 2) / 5 + 1
  let month := if monthFromMarch < 10 then monthFromMarch + 3 else monthFromMarch - 9
  let year := cycle * 400 + yearOfCycle + (if month ≤ 2 then 1 else 0)
  ofParts? year month dayOfMonth

/-- Earlier in the calendar. -/
def isBefore (a b : Date) : Bool :=
  a.year < b.year || (a.year == b.year &&
    (a.month < b.month || (a.month == b.month && a.day < b.day)))

end Date

end ListQuery.Calendar
