import ListQuery.Json.Basic
import ListQuery.Text.Quoted

/-!
# Why a JSON value could not be decoded

A text can break the grammar (`DecodeError.grammar`), and a value can have another shape than the
one that is decoded. Each cause is a constructor; the wording is in `message` alone.

What is left out: where in a text the error is. The full wording of an error that comes from a text
ends in its place, as in `trailing comma at line 1 column 4`. Readers here do not count lines and
columns, so `message` stops in front of ` at line`; the wording of an error in a value that is there
as a whole has no such end.
-/

namespace ListQuery

/-- Where a JSON text leaves the grammar. -/
inductive GrammarError where
  /-- The text ends where a value has to come, or inside one that is no string. -/
  | endInValue
  /-- The text ends inside an array. -/
  | endInArray
  /-- The text ends inside an object. -/
  | endInObject
  /-- The text ends inside a string. -/
  | endInString
  /-- `null`, `true` or `false` goes on with a wrong letter. -/
  | wrongLetter
  /-- A character that starts no value. -/
  | noValue
  /-- A key without a colon behind it. -/
  | noColon
  /-- An item followed by neither a comma nor the end of its array. -/
  | noItemSeparator
  /-- A member followed by neither a comma nor the end of its object. -/
  | noMemberSeparator
  /-- A member that does not start with a quote. -/
  | keyWithoutQuote
  /-- A comma in front of a closing bracket or brace. -/
  | trailingComma
  /-- Something behind the value. -/
  | trailingText
  /-- A number with a leading zero, or without a digit where one has to be. -/
  | malformedNumber
  /-- A number beyond the largest binary64 number. -/
  | numberTooLarge
  /-- A backslash with a character that has no meaning behind it. -/
  | unknownEscape
  /-- A control character that stands in a string unescaped. -/
  | controlCharacter
  /-- Half of a surrogate pair without its other half. -/
  | loneSurrogate
  /-- A leading surrogate that no escape follows. -/
  | openSurrogate
  /-- Arrays and objects nested too deeply. -/
  | tooDeep
deriving DecidableEq

namespace GrammarError

/-- The wording of a grammar error, without the line and the column that follow it. -/
def message : GrammarError → String
  | .endInValue => "EOF while parsing a value"
  | .endInArray => "EOF while parsing a list"
  | .endInObject => "EOF while parsing an object"
  | .endInString => "EOF while parsing a string"
  | .wrongLetter => "expected ident"
  | .noValue => "expected value"
  | .noColon => "expected `:`"
  | .noItemSeparator => "expected `,` or `]`"
  | .noMemberSeparator => "expected `,` or `\x7d`"
  | .keyWithoutQuote => "key must be a string"
  | .trailingComma => "trailing comma"
  | .trailingText => "trailing characters"
  | .malformedNumber => "invalid number"
  | .numberTooLarge => "number out of range"
  | .unknownEscape => "invalid escape"
  | .controlCharacter => "control character (\\u0000-\\u001F) found while parsing a string"
  | .loneSurrogate => "lone leading surrogate in hex escape"
  | .openSurrogate => "unexpected end of hex escape"
  | .tooDeep => "recursion limit exceeded"

end GrammarError

/-- What was found in place of the expected shape: a scalar in full, a container by its kind. -/
inductive Found where
  | null
  | bool (b : Bool)
  | number (n : JsonNumber)
  | string (s : String)
  | array
  | object
deriving DecidableEq

namespace Found

/-- What a value is found to be. -/
def ofJson : Json → Found
  | .null => .null
  | .bool b => .bool b
  | .number n => .number n
  | .string s => .string s
  | .array _ => .array
  | .object _ => .object

/-- The wording of what was found. -/
def words : Found → String
  | .null => "null"
  | .bool b => "boolean `" ++ toString b ++ "`"
  | .number (.integer n) => "integer `" ++ String.ofList (integerText n.val) ++ "`"
  | .number (.real x) =>
    "floating point `" ++ String.ofList (JsonNumber.text (.real x)) ++ "`"
  | .string s => "string " ++ Text.quoted s
  | .array => "sequence"
  | .object => "map"

end Found

/-- The shape that a decoder expects. -/
inductive Shape where
  /-- An object with arbitrary keys. -/
  | dictionary
  /-- An array of any length. -/
  | list
  | string
  /-- An integer from zero to `2 ^ 64 - 1`. -/
  | unsigned
  /-- The value that goes with a name in the object form of a choice, which is `null`. -/
  | unit
  /-- An object or array with the members of the named record. -/
  | record (name : String)
  /-- The array form of the named record with a given number of members. -/
  | recordItems (name : String) (count : Nat)
  /-- One of the two forms of a choice. -/
  | stringOrObject
  /-- The object form of a choice has exactly one key. -/
  | singleKey
  /-- An array without items behind the last member. -/
  | noMoreItems
deriving DecidableEq

namespace Shape

/-- The wording of an expected shape. -/
def words : Shape → String
  | .dictionary => "a map"
  | .list => "a sequence"
  | .string => "a string"
  | .unsigned => "u64"
  | .unit => "unit"
  | .record name => "struct " ++ name
  | .recordItems name count =>
    "struct " ++ name ++ " with " ++ toString count ++
      (if count = 1 then " element" else " elements")
  | .stringOrObject => "string or map"
  | .singleKey => "map with a single key"
  | .noMoreItems => "fewer elements in array"

end Shape

/-- Why a JSON text or value could not be decoded. -/
inductive DecodeError where
  /-- The text is not JSON. -/
  | grammar (error : GrammarError)
  /-- A value of another type. -/
  | wrongType (found : Found) (expected : Shape)
  /-- A value of the right type that is outside the expected range. -/
  | wrongValue (found : Found) (expected : Shape)
  /-- An array with too few or too many items. -/
  | wrongLength (length : Nat) (expected : Shape)
  /-- A name that the choice does not have. -/
  | unknownName (name : String) (known : List String)
  /-- A record without a required member. -/
  | missingMember (key : String)
  /-- A record that gives a member twice. -/
  | repeatedMember (key : String)
  /-- A value that is none of the forms of the named type. -/
  | noForm (name : String)
deriving DecidableEq

namespace DecodeError

/-- A name between backticks. -/
def ticked (name : String) : String := "`" ++ name ++ "`"

/-- The names that a choice has. -/
def knownNames : List String → String
  | [] => "there are no variants"
  | [a] => "expected " ++ ticked a
  | [a, b] => "expected " ++ ticked a ++ " or " ++ ticked b
  | names => "expected one of " ++ ", ".intercalate (names.map ticked)

/-- The wording of an error; of one in a text, without the line and the column that follow it. -/
def message : DecodeError → String
  | .grammar error => error.message
  | .wrongType found expected =>
    "invalid type: " ++ found.words ++ ", expected " ++ expected.words
  | .wrongValue found expected =>
    "invalid value: " ++ found.words ++ ", expected " ++ expected.words
  | .wrongLength length expected =>
    "invalid length " ++ toString length ++ ", expected " ++ expected.words
  | .unknownName name known => "unknown variant " ++ ticked name ++ ", " ++ knownNames known
  | .missingMember key => "missing field " ++ ticked key
  | .repeatedMember key => "duplicate field " ++ ticked key
  | .noForm name => "data did not match any variant of untagged enum " ++ name

end DecodeError

/-- What decoding gives: a result, or the first thing that is wrong. -/
abbrev Decoded := Except DecodeError

namespace Decoded

variable {α β : Type}

theorem bind_eq_ok_iff {x : Decoded α} {f : α → Decoded β} {b : β} :
    (x >>= f) = .ok b ↔ ∃ a, x = .ok a ∧ f a = .ok b := by
  cases x with
  | error e => simp [bind, Except.bind]
  | ok a => simp [bind, Except.bind]

theorem map_eq_ok_iff {x : Decoded α} {f : α → β} {b : β} :
    x.map f = .ok b ↔ ∃ a, x = .ok a ∧ f a = b := by
  cases x with
  | error e => simp [Except.map]
  | ok a => simp [Except.map]

end Decoded

end ListQuery
