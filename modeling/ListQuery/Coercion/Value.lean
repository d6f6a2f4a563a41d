import ListQuery.Calendar.Reader
import ListQuery.Json.Basic
import ListQuery.Text.Basic

/-!
# Values as numbers, booleans and dates

How a value that a client sent is read as the declared type of its field. Numbers and dates can
fail; a boolean is made of any value.
-/

namespace ListQuery

namespace Json

/-! ### Numbers -/

/-- A real number as JSON: an integer if it has no fraction and its magnitude is below `2 ^ 63`. -/
def ofReal (x : Binary64) : Json :=
  if x.isIntegral then
    if h : -9223372036854775808 < x.truncate ∧ x.truncate < 9223372036854775808 then
      .ofInteger ⟨x.truncate, by omega, by omega⟩
    else .number (.real x)
  else .number (.real x)

/-- An optional exponent at the end of a number: `e`, an optional sign and digits. -/
def exponentOf? (cs : List Char) : Option Int :=
  match cs with
  | [] => some 0
  | e :: cs =>
    let (negative, ds) := Text.splitSign cs
    if (e = 'e' ∨ e = 'E') ∧ !ds.isEmpty ∧ ds.all Char.isDigit then
      let n : Int := Nat.ofDigitChars 10 ds 0
      some (if negative then -n else n)
    else none

/-- The finite number nearest to decimal digits with an optional point and exponent. -/
def decimalOf? (negative : Bool) (cs : List Char) : Option Binary64 := do
  let whole := cs.takeWhile Char.isDigit
  let (part, cs) := match cs.dropWhile Char.isDigit with
    | '.' :: cs => (cs.takeWhile Char.isDigit, cs.dropWhile Char.isDigit)
    | cs => ([], cs)
  if whole.isEmpty ∧ part.isEmpty then none
  else
    let exponent ← exponentOf? cs
    Binary64.ofDecimal? negative (Nat.ofDigitChars 10 (whole ++ part) 0) (exponent - part.length)

/-- The number that a text gives, with blanks around it; an overflow is none. -/
def numberOfString? (text : String) : Option Binary64 :=
  let (negative, cs) := Text.splitSign (Text.trim text.toList)
  decimalOf? negative cs

/-- A value as a number: numbers stay, booleans are 1 and 0, and strings are read. -/
def toNumber? : Json → Option Json
  | .number n => some (.number n)
  | .bool true => some (.ofInteger ⟨1, by decide, by decide⟩)
  | .bool false => some (.ofInteger ⟨0, by decide, by decide⟩)
  | .string text => (numberOfString? text).map ofReal
  | _ => none

/-! ### Booleans -/

/-- A string without the difference between ASCII upper and lower case. -/
def lowered (text : String) : List Char := text.toList.map Char.toLower

/-- A value as a boolean: of strings only `true`, in any case; of others all but zero and `null`. -/
def toBoolean : Json → Bool
  | .null => false
  | .bool b => b
  | .number n => n.isNonzero
  | .string text => lowered text == ['t', 'r', 'u', 'e']
  | .array _ | .object _ => true

/-! ### Dates -/

/-- The instant of a value: a date text, or an integer as milliseconds since 1970. -/
def toInstant? : Json → Option Calendar.Instant
  | .string text => Calendar.Instant.ofString? text
  | .number (.integer n) =>
    if n.val ≤ 9223372036854775807 then Calendar.Instant.ofEpochMillis? n.val else none
  | _ => none

/-- A value as a date, in RFC 3339 form. -/
def toDate? (v : Json) : Option Json := v.toInstant?.map fun t => .string t.text

end Json

end ListQuery
