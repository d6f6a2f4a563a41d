import ListQuery.Json.DecodeError

/-!
# Tokens of a JSON text

A reader takes the characters that are left of a text and gives its result with the characters
behind it, or the first error in reading order. This module has the blanks between tokens, the
literals and the strings.

A string is read behind its opening quote. Escapes by code unit have to form characters: the two
halves of a surrogate pair come together or not at all.
-/

namespace ListQuery.Json

/-- From the characters that are left to a result with the characters behind it. -/
abbrev Reader (α : Type) := List Char → Decoded (α × List Char)

namespace Reader

/-- A reading that ends with a grammar error. -/
def fails {α : Type} (error : GrammarError) : Decoded α := .error (.grammar error)

/-! ### Blanks and literals -/

/-- Blanks between the tokens of a JSON text: four ASCII characters. -/
def isSpace (c : Char) : Bool := c = ' ' || c = '\n' || c = '\t' || c = '\r'

/-- The text from its next token on. -/
def skipSpace (cs : List Char) : List Char := cs.dropWhile isSpace

/-- The rest of a literal whose first letter has been seen. -/
def literal : List Char → Reader Unit
  | [], cs => .ok ((), cs)
  | _ :: _, [] => fails .endInValue
  | l :: ls, c :: cs => if c = l then literal ls cs else fails .wrongLetter

/-! ### Strings -/

/-- The value of a hexadecimal digit. -/
def hexValue? (c : Char) : Option Nat :=
  if '0' ≤ c ∧ c ≤ '9' then some (c.toNat - 48)
  else if 'a' ≤ c ∧ c ≤ 'f' then some (c.toNat - 87)
  else if 'A' ≤ c ∧ c ≤ 'F' then some (c.toNat - 55)
  else none

/-- The size of a text in UTF-8. -/
def byteSize (cs : List Char) : Nat := (String.ofList cs).utf8ByteSize

/--
Four hexadecimal digits. A text that ends within the next four bytes ends too early; any other
character among the four is no escape.
-/
def hexQuad (cs : List Char) : Decoded (Nat × List Char) :=
  match cs with
  | a :: b :: c :: d :: rest =>
    match hexValue? a, hexValue? b, hexValue? c, hexValue? d with
    | some a, some b, some c, some d => .ok (((a * 16 + b) * 16 + c) * 16 + d, rest)
    | _, _, _, _ => fails .unknownEscape
  | cs => if byteSize cs < 4 then fails .endInString else fails .unknownEscape

/-- The trailing half of a surrogate pair, which has to be an escape of its own. -/
def trailingSurrogate (lead : Nat) (cs : List Char) : Decoded (Char × List Char) :=
  match cs with
  | [] | ['\\'] => fails .endInString
  | '\\' :: 'u' :: cs => do
    let (n, cs) ← hexQuad cs
    if 0xdc00 ≤ n ∧ n ≤ 0xdfff then
      .ok (Char.ofNat (0x10000 + (lead - 0xd800) * 0x400 + (n - 0xdc00)), cs)
    else fails .loneSurrogate
  | _ => fails .openSurrogate

/-- The character of an escape by code unit. -/
def unicodeEscape (cs : List Char) : Decoded (Char × List Char) := do
  let (n, cs) ← hexQuad cs
  if 0xdc00 ≤ n ∧ n ≤ 0xdfff then fails .loneSurrogate
  else if 0xd800 ≤ n ∧ n ≤ 0xdbff then trailingSurrogate n cs
  else .ok (Char.ofNat n, cs)

/-- The character that a letter stands for behind a backslash. -/
def escapeLetter? (c : Char) : Option Char :=
  match c with
  | '"' => some '"'
  | '\\' => some '\\'
  | '/' => some '/'
  | 'b' => some '\x08'
  | 'f' => some '\x0c'
  | 'n' => some '\n'
  | 'r' => some '\r'
  | 't' => some '\t'
  | _ => none

/-- The character of an escape, behind its backslash. -/
def escaped (cs : List Char) : Decoded (Char × List Char) :=
  match cs with
  | [] => fails .endInString
  | 'u' :: cs => unicodeEscape cs
  | c :: cs =>
    match escapeLetter? c with
    | some c => .ok (c, cs)
    | none => fails .unknownEscape

/-- The characters of a string up to its closing quote; every step takes a character at least. -/
def stringChars : Nat → List Char → Decoded (List Char × List Char)
  | 0, _ => fails .endInString
  | _ + 1, [] => fails .endInString
  | _ + 1, '"' :: cs => .ok ([], cs)
  | steps + 1, '\\' :: cs => do
    let (c, cs) ← escaped cs
    let (s, cs) ← stringChars steps cs
    .ok (c :: s, cs)
  | steps + 1, c :: cs =>
    if c.toNat < 0x20 then fails .controlCharacter
    else do
      let (s, cs) ← stringChars steps cs
      .ok (c :: s, cs)

/-- A string behind its opening quote. -/
def stringBody (cs : List Char) : Decoded (String × List Char) := do
  let (s, cs) ← stringChars (cs.length + 1) cs
  .ok (String.ofList s, cs)

end Reader

end ListQuery.Json
