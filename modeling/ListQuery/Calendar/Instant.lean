import ListQuery.Calendar.Date

/-!
# Instants

An instant is a date with a time of day, in UTC. A minute may have a second 60, a leap second,
which comes after all of second 59 and before the next minute. Offsets of a time zone are whole
minutes, so a shift touches the minute of the day and the date and leaves the second alone.
-/

namespace ListQuery.Calendar

/-- A date and a time of day in UTC. -/
@[ext] structure Instant where
  date : Date
  /-- Minutes since midnight. -/
  minute : Nat
  second : Nat
  nano : Nat
  minute_lt : minute < 1440
  second_le : second ≤ 60
  nano_lt : nano < 1000000000
deriving DecidableEq

namespace Instant

/-- The instant with these parts, if the clock shows them. -/
def ofParts? (date : Date) (hour minute second nano : Nat) : Option Instant :=
  if h : hour ≤ 23 ∧ minute ≤ 59 ∧ second ≤ 60 ∧ nano < 1000000000 then
    some ⟨date, hour * 60 + minute, second, nano, by omega, h.2.2.1, h.2.2.2⟩
  else none

theorem ofParts?_self (t : Instant) :
    ofParts? t.date (t.minute / 60) (t.minute % 60) t.second t.nano = some t := by
  have := t.minute_lt
  rw [ofParts?, dif_pos ⟨by omega, by omega, t.second_le, t.nano_lt⟩]
  congr 1
  ext <;> simp
  omega

theorem ofParts?_eq_some {d : Date} {hour minute second nano : Nat} {t : Instant}
    (h : ofParts? d hour minute second nano = some t) : t.date = d ∧ t.nano = nano := by
  rw [ofParts?] at h
  split at h
  · obtain rfl := Option.some.inj h
    exact ⟨rfl, rfl⟩
  · cases h

/-- The start of a day. -/
def midnight (date : Date) : Instant := ⟨date, 0, 0, 0, by omega, by omega, by omega⟩

/-- The instant some minutes earlier, or later for a negative number, by less than a day. -/
def minusMinutes (t : Instant) (offset : Int) (h : -1440 < offset ∧ offset < 1440) : Instant :=
  let m := (t.minute : Int) - offset
  if hm : m < 0 then
    { t with date := t.date.prev, minute := (m + 1440).toNat,
             minute_lt := by have := t.minute_lt; omega }
  else if hm' : m < 1440 then
    { t with minute := m.toNat, minute_lt := by omega }
  else
    { t with date := t.date.next, minute := (m - 1440).toNat,
             minute_lt := by have := t.minute_lt; omega }

theorem minusMinutes_zero (t : Instant) (h : -1440 < (0 : Int) ∧ (0 : Int) < 1440) :
    t.minusMinutes 0 h = t := by
  have := t.minute_lt
  simp only [minusMinutes]
  rw [dif_neg (by omega), dif_pos (by omega)]
  ext <;> simp

/-- The instant some milliseconds after the start of 1970. -/
def ofEpochMillis? (ms : Int) : Option Instant :=
  let ofDay := (ms % 86400000).toNat
  match Date.ofEpochDay? (ms / 86400000) with
  | none => none
  | some date =>
    ofParts? date (ofDay / 3600000) (ofDay / 60000 % 60) (ofDay / 1000 % 60)
      (ofDay % 1000 * 1000000)

/-- Strictly later. -/
def isAfter (a b : Instant) : Bool :=
  b.date.isBefore a.date || (a.date == b.date &&
    (b.minute < a.minute || (a.minute == b.minute &&
      (b.second < a.second || (a.second == b.second && b.nano < a.nano)))))

/-! ### Text -/

/-- Decimal digits with zeros in front up to a width. -/
def padded (width n : Nat) : List Char :=
  let ds := Nat.toDigits 10 n
  List.replicate (width - ds.length) '0' ++ ds

/-- Four digits; a sign as well for a year before 0 or after 9999. -/
def yearText (year : Int) : List Char :=
  if year < 0 then '-' :: padded 4 year.natAbs
  else if 9999 < year then '+' :: padded 4 year.natAbs
  else padded 4 year.natAbs

/-- The RFC 3339 form in UTC with milliseconds; what is below a millisecond is cut off. -/
def text (t : Instant) : String :=
  String.ofList <|
    yearText t.date.year ++ '-' :: padded 2 t.date.month ++ '-' :: padded 2 t.date.day ++
    'T' :: padded 2 (t.minute / 60) ++ ':' :: padded 2 (t.minute % 60) ++
    ':' :: padded 2 t.second ++ '.' :: padded 3 (t.nano / 1000000) ++ ['Z']

end Instant

end ListQuery.Calendar
