import ListQuery.Json.Reader.Value

/-!
# Typed decoding

A `Decoder α` reads values of type `α` in two ways, from the characters of a JSON text and from a
JSON value. A text can be refused for what a value never shows, such as a comma too many, and its
errors come in reading order; a value is there as a whole.

Decoders are put together from parts. This module has the scalars, lists, dictionaries, optional
values and choices. A choice is one of several names: it is written as a string, or as an object
whose one key is the name and whose value is `null`.
-/

namespace ListQuery

open Json.Reader

/-- How values of a type are read from the characters of a text and from a JSON value. -/
structure Decoder (α : Type) where
  /-- Read a value in front of other characters, with containers nested at most so deep. -/
  ofChars : Nat → Json.Reader α
  /-- Read a value that is there as a whole. -/
  ofJson : Json → Decoded α

namespace Decoder

variable {α β : Type}

/-- Decode a whole text. -/
def ofText (d : Decoder α) (text : String) : Decoded α :=
  document (d.ofChars maxDepth) text

/-- Decode, then convert. -/
def map (f : α → β) (d : Decoder α) : Decoder β where
  ofChars depth cs := (d.ofChars depth cs).map fun r => (f r.1, r.2)
  ofJson v := (d.ofJson v).map f

/-- Any value. -/
def json : Decoder Json where
  ofChars := value
  ofJson v := .ok v

/-- A string. -/
def string : Decoder String where
  ofChars _ cs :=
    match skipSpace cs with
    | '"' :: cs => stringBody cs
    | cs => .error (wrongType .string cs)
  ofJson
    | .string s => .ok s
    | v => .error (.wrongType (Found.ofJson v) .string)

/-- The unsigned integer that a number is, if it is one. -/
def unsignedOfNumber (n : JsonNumber) : Decoded Unsigned64 :=
  match n with
  | .integer i =>
    match Bounded.ofInt? i.val with
    | some k => .ok k
    | none => .error (.wrongValue (.number n) .unsigned)
  | .real _ => .error (.wrongType (.number n) .unsigned)

/-- An unsigned integer. -/
def unsigned : Decoder Unsigned64 where
  ofChars _ cs :=
    match skipSpace cs with
    | c :: cs =>
      if c = '-' ∨ c.isDigit then do
        let (n, cs) ← number (c :: cs)
        let k ← unsignedOfNumber n
        .ok (k, cs)
      else .error (wrongType .unsigned (c :: cs))
    | [] => fails .endInValue
  ofJson
    | .number n => unsignedOfNumber n
    | v => .error (.wrongType (Found.ofJson v) .unsigned)

/-- `null`, which goes with a name in the object form of a choice. -/
def unit : Decoder Unit where
  ofChars _ cs :=
    match skipSpace cs with
    | 'n' :: cs => literal ['u', 'l', 'l'] cs
    | cs => .error (wrongType .unit cs)
  ofJson
    | .null => .ok ()
    | v => .error (.wrongType (Found.ofJson v) .unit)

/-- An array of any length. -/
def list (d : Decoder α) : Decoder (List α) where
  ofChars depth cs :=
    match skipSpace cs with
    | '[' :: cs =>
      match depth with
      | 0 => fails .tooDeep
      | depth + 1 => items (d.ofChars depth) cs
    | cs => .error (wrongType .list cs)
  ofJson
    | .array vs => vs.mapM d.ofJson
    | v => .error (.wrongType (Found.ofJson v) .list)

/-- The members of an object, decoded in order. -/
def entriesOfJson (d : Decoder α) : List (String × Json) → Decoded (List (String × α))
  | [] => .ok []
  | (key, v) :: rest => do
    let a ← d.ofJson v
    let as ← entriesOfJson d rest
    .ok ((key, a) :: as)

/-- An object with arbitrary keys: a repeated key keeps its place and its last value. -/
def dictionary (d : Decoder α) : Decoder (Dict α) where
  ofChars depth cs :=
    match skipSpace cs with
    | '\x7b' :: cs =>
      match depth with
      | 0 => fails .tooDeep
      | depth + 1 => Json.Reader.dictionary (d.ofChars depth) cs
    | cs => .error (wrongType .dictionary cs)
  ofJson
    | .object ms => (entriesOfJson d ms).map Dict.ofList
    | v => .error (.wrongType (Found.ofJson v) .dictionary)

/-- A value that may be `null`. -/
def optional (d : Decoder α) : Decoder (Option α) where
  ofChars depth cs :=
    match skipSpace cs with
    | 'n' :: cs => do
      let ((), cs) ← literal ['u', 'l', 'l'] cs
      .ok (none, cs)
    | cs => (d.ofChars depth cs).map fun r => (some r.1, r.2)
  ofJson
    | .null => .ok none
    | v => (d.ofJson v).map some

/-! ### Choices -/

/-- What a name stands for among named alternatives. -/
def chosen (names : List (String × α)) (name : String) : Decoded α :=
  match Entries.get? name names with
  | some a => .ok a
  | none => .error (.unknownName name (Entries.keys names))

/--
The name of a choice in its object form: a key, and so a string. In an object without keys the
choice itself is missing.
-/
def choiceName (cs : List Char) : Decoded (String × List Char) :=
  match skipSpace cs with
  | [] => fails .endInValue
  | '"' :: cs => stringBody cs
  | '\x7d' :: _ => fails .noValue
  | _ => fails .keyWithoutQuote

/-- One of several names, as a string or as the one key of an object whose value is `null`. -/
def choice (names : List (String × α)) : Decoder α where
  ofChars depth cs :=
    match skipSpace cs with
    | [] => fails .endInValue
    | '"' :: cs => do
      let (name, cs) ← stringBody cs
      let a ← chosen names name
      .ok (a, cs)
    | '\x7b' :: cs =>
      match depth with
      | 0 => fails .tooDeep
      | depth + 1 => do
        let (name, cs) ← choiceName cs
        let a ← chosen names name
        let ((), cs) ← colon cs
        let ((), cs) ← unit.ofChars depth cs
        match skipSpace cs with
        | [] => fails .endInObject
        | '\x7d' :: cs => .ok (a, cs)
        | _ => fails .noValue
    | _ => fails .noValue
  ofJson
    | .string name => chosen names name
    | .object [(name, v)] => do
      let a ← chosen names name
      let () ← unit.ofJson v
      .ok a
    | .object _ => .error (.wrongValue .object .singleKey)
    | v => .error (.wrongType (Found.ofJson v) .stringOrObject)

/-! ### Equations of `ofJson` -/

theorem ofJson_list_json (vs : List Json) : (list json).ofJson (.array vs) = .ok vs := by
  have hpure : vs.mapM json.ofJson = pure (vs.map id) := List.mapM_pure
  rwa [List.map_id] at hpure

theorem entriesOfJson_json (ms : List (String × Json)) : entriesOfJson json ms = .ok ms := by
  induction ms with
  | nil => rfl
  | cons m ms ih => exact Decoded.bind_eq_ok_iff.2 ⟨m.2, rfl, by rw [ih]; rfl⟩

theorem ofJson_dictionary_json (ms : List (String × Json)) :
    (dictionary json).ofJson (.object ms) = .ok (Dict.ofList ms) := by
  show (entriesOfJson json ms).map Dict.ofList = _
  rw [entriesOfJson_json]
  rfl

theorem ofJson_optional (d : Decoder α) {v : Json} (h : v ≠ .null) :
    d.optional.ofJson v = (d.ofJson v).map some := by
  cases v <;> first | rfl | exact absurd rfl h

end Decoder

end ListQuery
