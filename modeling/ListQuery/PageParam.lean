import ListQuery.Json.Decoder.Basic
import ListQuery.Json.Printer
import ListQuery.Text.Basic

/-!
# Page parameters

The page number and the number of rows come as text or as a JSON number, and may be no integers at
all. A parameter that is none keeps the value it came with, so that a report can show it; everything
else reads its leading digits. Values beyond 64 bits count as the nearest bound.
-/

namespace ListQuery

/-- An integer parameter, or the value that is none. -/
inductive PageParam where
  | valid (n : Signed64)
  | invalid (raw : Json)
deriving DecidableEq

namespace PageParam

/-- The number of a sign and decimal digits, clamped to 64 bits. -/
def ofDigits (negative : Bool) (digits : List Char) : Signed64 :=
  let n : Int := Nat.ofDigitChars 10 digits 0
  .clamp signedMin_le_signedMax (if negative then -n else n)

/--
The integer in front of a text: blanks around it, an optional sign and the digits that follow it.
Whatever comes behind the digits is ignored.
-/
def ofString (raw : String) : PageParam :=
  let (negative, unsigned) := Text.splitSign (Text.trim raw.toList)
  match unsigned.takeWhile Char.isDigit with
  | [] => .invalid (.string raw)
  | digits => .valid (ofDigits negative digits)

/-- A string is read, a number is read from its text, and anything else is no integer. -/
def ofJson : Json → PageParam
  | .string text => ofString text
  | .number n => ofString (String.ofList n.text)
  | raw => .invalid raw

/-- The integer, if it is one. -/
def value? : PageParam → Option Signed64
  | .valid n => some n
  | .invalid _ => none

/-- The parameter as it is shown in messages. -/
def text : PageParam → String
  | .valid n => String.ofList (integerText n.val)
  | .invalid (.string raw) => raw
  | .invalid raw => raw.compact

/-- The parameter as a member of a request. -/
def toJson : PageParam → Json
  | .valid n => .ofInteger n.toJsonInteger
  | .invalid raw => raw

/-- Page parameters are never refused. -/
def decoder : Decoder PageParam := .map ofJson .json

end PageParam

end ListQuery
