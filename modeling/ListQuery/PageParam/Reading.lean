import ListQuery.PageParam
import ListQuery.Text.Utf8

/-!
# Two readings of a page parameter

What stands in a text that is read as an integer, and how it can be read in bytes and words.

A `Numeral` is a text by its parts: blanks, a sign, digits, a rest that is not read, and blanks
again, each as long as it can be. It says what the parameter is without saying how the parts are
found.

`PageParam.ofBytes?` finds them. It looks at single bytes, cuts the text at places counted in bytes
and computes in 64 bits, and it has no result if one of these steps fails: if a cut is inside of a
character, or if an integer leaves the range where nothing takes its place. Only of the digits that
may happen, and then the bound is taken.
-/

namespace ListQuery

/-! ### The parts of a text -/

/-- A text by its parts, of which the sign and the digits are read as an integer. -/
structure Numeral where
  before : List Char
  sign : List Char
  digits : List Char
  rest : List Char
  after : List Char
  blank_before : ∀ c ∈ before, Text.isBlank c = true
  blank_after : ∀ c ∈ after, Text.isBlank c = true
  /-- No blank at either end belongs to what is between them. -/
  head_not_blank : ∀ c ∈ (sign ++ (digits ++ rest)).head?, Text.isBlank c = false
  last_not_blank : ∀ c ∈ (sign ++ (digits ++ rest)).getLast?, Text.isBlank c = false
  sign_mem : sign ∈ [[], ['-'], ['+']]
  /-- What can be the sign is the sign. -/
  sign_of_head : ∀ c ∈ (digits ++ rest).head?, sign = [] → c ≠ '-' ∧ c ≠ '+'
  isDigit_digits : ∀ c ∈ digits, c.isDigit = true
  /-- All digits that follow the sign are among the digits. -/
  head_not_digit : ∀ c ∈ rest.head?, c.isDigit = false

namespace Numeral

/-- The whole text. -/
def text (t : Numeral) : List Char := t.before ++ ((t.sign ++ (t.digits ++ t.rest)) ++ t.after)

/-- The decimal value of the digits, negated behind a minus sign. -/
def value (t : Numeral) : Int :=
  let n : Int := Nat.ofDigitChars 10 t.digits 0
  if t.sign = ['-'] then -n else n

/-- The text as a page parameter: its value, clamped to 64 bits, or the text if it has no digits. -/
def param (t : Numeral) : PageParam :=
  if t.digits = [] then .invalid (.string (String.ofList t.text))
  else .valid (.clamp signedMin_le_signedMax t.value)

end Numeral

/-! ### Bytes and words -/

namespace PageParam

open Text

/-- The sign, if the first byte is one, and what is behind that byte. -/
def signOfBytes? (cs : List Char) : Option (Bool × List Char) :=
  if (bytes cs).head? = some 45 then (cutBytes? 1 cs).map fun parts => (true, parts.2)
  else if (bytes cs).head? = some 43 then (cutBytes? 1 cs).map fun parts => (false, parts.2)
  else some (false, cs)

/-- An integer with one more digit; none if ten times the integer, or the digit added, is too large
for 64 bits. -/
def pushDigit? (n : Signed64) (digit : Char) : Option Signed64 := do
  let tens : Signed64 ← Bounded.ofInt? (n.val * 10)
  Bounded.ofInt? (tens.val + (digit.toNat - 48 : Nat))

/-- Digits one after the other as an integer of 64 bits. -/
def ofDigits? (digits : List Char) : Option Signed64 :=
  digits.foldlM pushDigit? (.clamp signedMin_le_signedMax 0)

/-- A sign and digits as an integer of 64 bits: the bound if the digits are too large, and none if
the negated integer is. -/
def saturated? (negative : Bool) (digits : List Char) : Option Signed64 :=
  match ofDigits? digits with
  | some n => if negative then Bounded.ofInt? (-n.val) else some n
  | none =>
    if negative then some ⟨-9223372036854775808, by decide, by decide⟩
    else some ⟨9223372036854775807, by decide, by decide⟩

/-- The parameter of a text, in bytes and words; none if a step fails. -/
def ofBytes? (raw : String) : Option PageParam := do
  let (negative, unsigned) ← signOfBytes? (trim raw.toList)
  let length := ((bytes unsigned).takeWhile isDigitByte).length
  if length = 0 then return .invalid (.string raw)
  let (digits, _) ← cutBytes? length unsigned
  let n ← saturated? negative digits
  return .valid n

end PageParam

end ListQuery
