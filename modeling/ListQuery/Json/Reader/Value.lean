import ListQuery.Json.Reader.Container
import ListQuery.Json.Reader.Number

/-!
# Reading values

`value` reads any value. Containers hand down the number of levels that may still open, less one, so
the reading is a structural recursion on it. `document` makes a reader of one value a reader of a
whole text.
-/

namespace ListQuery.Json.Reader

/-- Arrays and objects may be nested this deep. -/
def maxDepth : Nat := 127

/-- Any value, with containers nested at most `depth` deep. -/
def value : Nat → Reader Json
  | depth, cs =>
    match skipSpace cs with
    | [] => fails .endInValue
    | 'n' :: cs => do
      let ((), cs) ← literal ['u', 'l', 'l'] cs
      .ok (.null, cs)
    | 't' :: cs => do
      let ((), cs) ← literal ['r', 'u', 'e'] cs
      .ok (.bool true, cs)
    | 'f' :: cs => do
      let ((), cs) ← literal ['a', 'l', 's', 'e'] cs
      .ok (.bool false, cs)
    | '"' :: cs => do
      let (s, cs) ← stringBody cs
      .ok (.string s, cs)
    | '[' :: cs =>
      match depth with
      | 0 => fails .tooDeep
      | depth + 1 => do
        let (as, cs) ← items (value depth) cs
        .ok (.array as, cs)
    | '\x7b' :: cs =>
      match depth with
      | 0 => fails .tooDeep
      | depth + 1 => do
        let (d, cs) ← dictionary (value depth) cs
        .ok (.object d.entries, cs)
    | c :: cs =>
      if c = '-' ∨ c.isDigit then do
        let (n, cs) ← number (c :: cs)
        .ok (.number n, cs)
      else fails .noValue

/--
The error for a value of the wrong type. A scalar is read first, and its own error comes first; a
container is judged by its first character.
-/
def wrongType (expected : Shape) (cs : List Char) : DecodeError :=
  match skipSpace cs with
  | '[' :: _ => .wrongType .array expected
  | '\x7b' :: _ => .wrongType .object expected
  | cs =>
    match value 0 cs with
    | .ok (v, _) => .wrongType (Found.ofJson v) expected
    | .error e => e

/-- A whole text: one value with nothing but blanks around it. -/
def document {α : Type} (read : Reader α) (text : String) : Decoded α := do
  let (a, cs) ← read text.toList
  match skipSpace cs with
  | [] => .ok a
  | _ :: _ => fails .trailingText

end ListQuery.Json.Reader

namespace ListQuery.Json

/-- The value that a text holds. -/
def ofText (text : String) : Decoded Json := Reader.document (Reader.value Reader.maxDepth) text

end ListQuery.Json
