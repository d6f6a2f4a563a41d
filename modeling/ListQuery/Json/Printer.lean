import ListQuery.Json.Basic

/-!
# The text of a JSON value

Compact JSON: no blanks, members in their order. Strings escape the quote, the backslash and the
control characters below the space, and nothing else.
-/

namespace ListQuery.Json

/-- The last four bits of a number as a hexadecimal digit. -/
def hexDigit (n : Nat) : Char := Nat.digitChar (n % 16)

/-- The form of a character inside a JSON string. -/
def escape (c : Char) : List Char :=
  if c = '"' then ['\\', '"']
  else if c = '\\' then ['\\', '\\']
  else if c = '\x08' then ['\\', 'b']
  else if c = '\x0c' then ['\\', 'f']
  else if c = '\n' then ['\\', 'n']
  else if c = '\r' then ['\\', 'r']
  else if c = '\t' then ['\\', 't']
  else if c.toNat < 0x20 then ['\\', 'u', '0', '0', hexDigit (c.toNat / 16), hexDigit c.toNat]
  else [c]

/-- A string between quotes. -/
def stringText (s : String) : List Char :=
  '"' :: (s.toList.flatMap escape ++ ['"'])

mutual

/-- The compact text of a value. -/
def text : Json → List Char
  | .null => ['n', 'u', 'l', 'l']
  | .bool true => ['t', 'r', 'u', 'e']
  | .bool false => ['f', 'a', 'l', 's', 'e']
  | .number n => n.text
  | .string s => stringText s
  | .array items => '[' :: itemsText items
  | .object members => '\x7b' :: membersText members

/-- The items of an array, up to its closing bracket. -/
def itemsText : List Json → List Char
  | [] => [']']
  | item :: rest => item.text ++ moreItemsText rest

/-- The items after the first, each behind a comma, up to the closing bracket. -/
def moreItemsText : List Json → List Char
  | [] => [']']
  | item :: rest => ',' :: (item.text ++ moreItemsText rest)

/-- The members of an object, up to its closing brace. -/
def membersText : List (String × Json) → List Char
  | [] => ['\x7d']
  | (key, value) :: rest => stringText key ++ ':' :: (value.text ++ moreMembersText rest)

/-- The members after the first, each behind a comma, up to the closing brace. -/
def moreMembersText : List (String × Json) → List Char
  | [] => ['\x7d']
  | (key, value) :: rest => ',' :: (stringText key ++ ':' :: (value.text ++ moreMembersText rest))

end

/-- The compact text of a value, as a string. -/
def compact (value : Json) : String := String.ofList value.text

end ListQuery.Json
