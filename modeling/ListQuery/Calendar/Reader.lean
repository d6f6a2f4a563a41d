import ListQuery.Calendar.Instant
import ListQuery.Text.Basic

/-!
# Reading dates

Three forms of a date are read: RFC 3339 with an offset, the same without an offset, and a date
alone. The first is strict about the number of digits. In the other two a number may have blanks
in front and fewer digits, and a year with a sign any number of digits. `Instant.ofString?` tries
them in this order; times without an offset are in UTC.
-/

namespace ListQuery.Calendar

/-- The value of the decimal digits `ds`. -/
def digitsValue (ds : List Char) : Nat := Nat.ofDigitChars 10 ds 0

/-- Exactly so many digits in front, and what follows them. -/
def exactDigits (count : Nat) (cs : List Char) : Option (Nat × List Char) :=
  let ds := cs.take count
  if ds.length = count ∧ ds.all Char.isDigit then some (digitsValue ds, cs.drop count) else none

/-- What follows the character `c`. -/
def expect (c : Char) : List Char → Option (List Char)
  | [] => none
  | d :: cs => if d = c then some cs else none

theorem expect_cons (c : Char) (cs : List Char) : expect c (c :: cs) = some cs := if_pos rfl

theorem expect_eq_some {c : Char} {cs rest : List Char} (h : expect c cs = some rest) :
    rest = cs.drop 1 := by
  cases cs with
  | nil => cases h
  | cons d cs =>
    rw [expect] at h
    split at h
    · exact (Option.some.inj h).symm
    · cases h

/--
An optional fraction of a second in nanoseconds: a point and at least one digit. Digits after the
ninth are ignored.
-/
def fraction (cs : List Char) : Option (Nat × List Char) :=
  match cs with
  | '.' :: cs =>
    let ds := cs.takeWhile Char.isDigit
    let kept := ds.take 9
    if ds.isEmpty then none
    else some (digitsValue kept * Nat.pow 10 (9 - kept.length), cs.dropWhile Char.isDigit)
  | cs => some (0, cs)

/-- The end of the text. -/
def atEnd (cs : List Char) : Option Unit := if cs.isEmpty then some () else none

theorem atEnd_eq_some {cs : List Char} (h : atEnd cs = some ()) : cs = [] := by
  cases cs with
  | nil => rfl
  | cons c cs => cases h

/-! ### With an offset -/

/-- An offset from UTC in minutes, less than a day. -/
abbrev Offset := { m : Int // -1440 < m ∧ m < 1440 }

/-- The hours and minutes of an offset behind its sign. -/
def offsetMinutes (negative : Bool) (cs : List Char) : Option (Offset × List Char) := do
  let (hours, cs) ← exactDigits 2 cs
  let cs ← expect ':' cs
  let (minutes, cs) ← exactDigits 2 cs
  if h : hours ≤ 23 ∧ minutes ≤ 59 then
    let m : Int := hours * 60 + minutes
    some (⟨if negative then -m else m, by split <;> omega⟩, cs)
  else none

/-- An offset: `Z`, or a sign, hours and minutes. The sign may be the minus sign U+2212. -/
def offset (cs : List Char) : Option (Offset × List Char) :=
  match cs with
  | 'Z' :: cs | 'z' :: cs => some (⟨0, by decide⟩, cs)
  | '+' :: cs => offsetMinutes false cs
  | '-' :: cs => offsetMinutes true cs
  | '\u2212' :: cs => offsetMinutes true cs
  | _ => none

/-- What stands between date and time of day. -/
def dateTimeSeparator : List Char → Option (List Char)
  | 'T' :: cs | 't' :: cs | ' ' :: cs => some cs
  | _ => none

theorem dateTimeSeparator_eq_some {cs rest : List Char} (h : dateTimeSeparator cs = some rest) :
    rest = cs.drop 1 := by
  unfold dateTimeSeparator at h
  split at h
  case h_1 => exact (Option.some.inj h).symm
  case h_2 => exact (Option.some.inj h).symm
  case h_3 => exact (Option.some.inj h).symm
  case h_4 => cases h

/-- The RFC 3339 form. -/
def rfc3339? (cs : List Char) : Option Instant := do
  let (year, cs) ← exactDigits 4 cs
  let cs ← expect '-' cs
  let (month, cs) ← exactDigits 2 cs
  let cs ← expect '-' cs
  let (day, cs) ← exactDigits 2 cs
  let cs ← dateTimeSeparator cs
  let (hour, cs) ← exactDigits 2 cs
  let cs ← expect ':' cs
  let (minute, cs) ← exactDigits 2 cs
  let cs ← expect ':' cs
  let (second, cs) ← exactDigits 2 cs
  let (nano, cs) ← fraction cs
  let (zone, cs) ← offset cs
  let () ← atEnd cs
  let date ← Date.ofParts? year month day
  let local_ ← Instant.ofParts? date hour minute second nano
  return local_.minusMinutes zone.val zone.property

/-! ### Without an offset -/

/-- Up to so many digits, at least one, behind blanks. -/
def looseDigits (most : Nat) (cs : List Char) : Option (Nat × List Char) :=
  let cs := Text.trimStart cs
  let ds := (cs.take most).takeWhile Char.isDigit
  if ds.isEmpty then none else some (digitsValue ds, cs.drop ds.length)

/-- A run of digits of any length, at least one. -/
def anyDigits (cs : List Char) : Option (Nat × List Char) :=
  let ds := cs.takeWhile Char.isDigit
  if ds.isEmpty then none else some (digitsValue ds, cs.dropWhile Char.isDigit)

/-- A year: up to four digits, or a sign and any number of digits. -/
def looseYear (cs : List Char) : Option (Int × List Char) :=
  match Text.trimStart cs with
  | '-' :: cs => (anyDigits cs).map fun r => (-(r.1 : Int), r.2)
  | '+' :: cs => (anyDigits cs).map fun r => ((r.1 : Int), r.2)
  | cs => (looseDigits 4 cs).map fun r => ((r.1 : Int), r.2)

/-- Year, month and day. -/
def looseDate (cs : List Char) : Option (Date × List Char) := do
  let (year, cs) ← looseYear cs
  let cs ← expect '-' cs
  let (month, cs) ← looseDigits 2 cs
  let cs ← expect '-' cs
  let (day, cs) ← looseDigits 2 cs
  let date ← Date.ofParts? year month day
  return (date, cs)

/-- A date and a time of day without an offset. -/
def plainDateTime? (cs : List Char) : Option Instant := do
  let (date, cs) ← looseDate cs
  let cs ← expect 'T' cs
  let (hour, cs) ← looseDigits 2 cs
  let cs ← expect ':' cs
  let (minute, cs) ← looseDigits 2 cs
  let cs ← expect ':' cs
  let (second, cs) ← looseDigits 2 cs
  let (nano, cs) ← fraction cs
  let () ← atEnd cs
  Instant.ofParts? date hour minute second nano

/-- A date alone: its first instant. -/
def plainDate? (cs : List Char) : Option Instant := do
  let (date, cs) ← looseDate cs
  let () ← atEnd cs
  return Instant.midnight date

/-- The instant that a text gives in one of the three forms, with blanks around it. -/
def Instant.ofString? (text : String) : Option Instant :=
  let cs := Text.trim text.toList
  (rfc3339? cs).or ((plainDateTime? cs).or (plainDate? cs))

/-! ### The strict form -/

/-- A text fits a template if it has digits where the template has zeros and is equal elsewhere. -/
def fits (template cs : List Char) : Bool :=
  match template, cs with
  | [], [] => true
  | t :: ts, c :: cs => (if t = '0' then c.isDigit else t == c) && fits ts cs
  | _, _ => false

theorem fits_cons_iff {u : Char} {us cs : List Char} :
    fits (u :: us) cs = true ↔
      ∃ c rest, cs = c :: rest ∧ (if u = '0' then c.isDigit = true else c = u) ∧
        fits us rest = true := by
  cases cs with
  | nil => simp [fits]
  | cons c cs =>
    have hhead : (if u = '0' then c.isDigit else u == c) = true ↔
        if u = '0' then c.isDigit = true else c = u := by
      split
      · rfl
      · rw [beq_iff_eq, eq_comm]
    rw [fits, Bool.and_eq_true, hhead]
    constructor
    · intro h
      exact ⟨c, cs, rfl, h⟩
    · rintro ⟨d, ds, heq, h⟩
      obtain ⟨rfl, rfl⟩ := List.cons.inj heq
      exact h

theorem fits_nil_iff {cs : List Char} : fits [] cs = true ↔ cs = [] := by
  cases cs with
  | nil => simp [fits]
  | cons c cs => simp [fits]

theorem fits_append {us cs : List Char} (h : fits us cs = true) (vs ds : List Char) :
    fits (us ++ vs) (cs ++ ds) = fits vs ds := by
  induction us generalizing cs with
  | nil =>
    cases cs with
    | nil => rfl
    | cons c cs => cases h
  | cons u us ih =>
    cases cs with
    | nil => cases h
    | cons c cs =>
      rw [fits, Bool.and_eq_true] at h
      rw [List.cons_append, List.cons_append, fits, h.1, ih h.2, Bool.true_and]

theorem fits_drop {us cs : List Char} (h : fits us cs = true) (k : Nat) :
    fits (us.drop k) (cs.drop k) = true := by
  induction k generalizing us cs with
  | zero => exact h
  | succ k ih =>
    cases us with
    | nil =>
      cases cs with
      | nil => rfl
      | cons c cs => cases h
    | cons u us =>
      obtain ⟨c, rest, rfl, -, hrest⟩ := fits_cons_iff.1 h
      exact ih hrest

/-- RFC 3339 in UTC, with milliseconds or without a fraction, and nothing around it. -/
def isStrictUtc (cs : List Char) : Bool :=
  fits "0000-00-00T00:00:00Z".toList cs || fits "0000-00-00T00:00:00.000Z".toList cs

/-- The instant of a text in the strict form. -/
def Instant.ofStrictUtc? (text : String) : Option Instant :=
  if isStrictUtc text.toList then rfc3339? text.toList else none

end ListQuery.Calendar
