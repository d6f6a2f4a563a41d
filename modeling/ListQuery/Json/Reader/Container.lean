import ListQuery.Json.Reader.Token

/-!
# Reading arrays and objects

The separators of arrays and objects, and the two loops over their contents. `items` and `members`
take the reader of one item as a parameter, so that values of any kind and typed values are read by
the same loops.
-/

namespace ListQuery.Json.Reader

/--
Whether an array goes on, behind its opening bracket (`first`) or behind an item: the text from the
next item on, or from the closing bracket on.
-/
def nextItem (first : Bool) (cs : List Char) : Decoded (Bool × List Char) :=
  match skipSpace cs with
  | [] => fails .endInArray
  | ']' :: cs => .ok (false, ']' :: cs)
  | ',' :: cs =>
    if first then .ok (true, ',' :: cs)
    else
      match skipSpace cs with
      | [] => fails .endInValue
      | ']' :: _ => fails .trailingComma
      | cs => .ok (true, cs)
  | cs => if first then .ok (true, cs) else fails .noItemSeparator

/-- The closing bracket of an array whose wanted items have been read. -/
def closeArray (cs : List Char) : Decoded (Unit × List Char) :=
  match skipSpace cs with
  | [] => fails .endInArray
  | ']' :: cs => .ok ((), cs)
  | ',' :: cs =>
    match skipSpace cs with
    | ']' :: _ => fails .trailingComma
    | _ => fails .trailingText
  | _ => fails .trailingText

/-- Whether an object goes on: the text from the next key on, or from the closing brace on. -/
def nextMember (first : Bool) (cs : List Char) : Decoded (Bool × List Char) :=
  match skipSpace cs with
  | [] => fails .endInObject
  | '\x7d' :: cs => .ok (false, '\x7d' :: cs)
  | ',' :: cs =>
    if first then fails .keyWithoutQuote
    else
      match skipSpace cs with
      | [] => fails .endInValue
      | '"' :: cs => .ok (true, '"' :: cs)
      | '\x7d' :: _ => fails .trailingComma
      | _ => fails .keyWithoutQuote
  | '"' :: cs => if first then .ok (true, '"' :: cs) else fails .noMemberSeparator
  | _ => if first then fails .keyWithoutQuote else fails .noMemberSeparator

/-- The colon between a key and its value. -/
def colon (cs : List Char) : Decoded (Unit × List Char) :=
  match skipSpace cs with
  | [] => fails .endInObject
  | ':' :: cs => .ok ((), cs)
  | _ => fails .noColon

/-- The items of an array up to and with its closing bracket; every step takes a character. -/
def itemsFrom {α : Type} (item : Reader α) :
    Nat → Bool → Reader (List α)
  | 0, _, _ => fails .endInArray
  | steps + 1, first, cs => do
    let (more, cs) ← nextItem first cs
    if more then
      let (a, cs) ← item cs
      let (as, cs) ← itemsFrom item steps false cs
      .ok (a :: as, cs)
    else .ok ([], cs.drop 1)

/-- The items of an array behind its opening bracket. -/
def items {α : Type} (item : Reader α) : Reader (List α) := fun cs =>
  itemsFrom item (cs.length + 1) true cs

/--
The members of an object up to and with its closing brace, added to what has been collected.
`member` reads the value of a key, colon included, and adds it.
-/
def membersFrom {σ : Type} (member : σ → String → Reader σ) :
    Nat → Bool → σ → Reader σ
  | 0, _, _, _ => fails .endInObject
  | steps + 1, first, s, cs => do
    let (more, cs) ← nextMember first cs
    if more then
      let (key, cs) ← stringBody (cs.drop 1)
      let (s, cs) ← member s key cs
      membersFrom member steps false s cs
    else .ok (s, cs.drop 1)

/-- The members of an object behind its opening brace. -/
def members {σ : Type} (member : σ → String → Reader σ) (start : σ) : Reader σ := fun cs =>
  membersFrom member (cs.length + 1) true start cs

/-- A dictionary behind its opening brace: a repeated key keeps its place and its last value. -/
def dictionary {α : Type} (item : Reader α) : Reader (Dict α) :=
  members (fun d key cs => do
    let ((), cs) ← colon cs
    let (a, cs) ← item cs
    .ok (d.insert key a, cs)) Dict.empty

end ListQuery.Json.Reader
