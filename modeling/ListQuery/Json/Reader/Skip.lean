import ListQuery.Json.Reader.Container
import ListQuery.Json.Reader.Number

/-!
# Passing over values

Values under keys that nobody asked for are checked for their grammar and not kept. Their numbers
may be too large, their escapes may be half characters, and they may be nested to any depth: what
is open is kept on a stack.
-/

namespace ListQuery.Json.Reader

/-- A character escape that is not decoded: code units need not form a character. -/
def skipEscape (cs : List Char) : Decoded (List Char) :=
  match cs with
  | [] => fails .endInString
  | 'u' :: cs => do
    let (_, cs) ← hexQuad cs
    .ok cs
  | c :: cs => if (escapeLetter? c).isSome then .ok cs else fails .unknownEscape

/-- The rest of a string that is not kept. -/
def skipStringFrom : Nat → List Char → Decoded (List Char)
  | 0, _ => fails .endInString
  | _ + 1, [] => fails .endInString
  | _ + 1, '"' :: cs => .ok cs
  | steps + 1, '\\' :: cs => do
    let cs ← skipEscape cs
    skipStringFrom steps cs
  | steps + 1, c :: cs =>
    if c.toNat < 0x20 then fails .controlCharacter else skipStringFrom steps cs

/-- The rest of a string that is not kept, behind its opening quote. -/
def skipString (cs : List Char) : Decoded (List Char) :=
  skipStringFrom (cs.length + 1) cs

/-- At least one digit. -/
def skipDigits (cs : List Char) : Decoded (List Char) :=
  match digitRun cs with
  | ([], _) => fails .malformedNumber
  | (_, cs) => .ok cs

/-- An optional exponent that is not kept. -/
def skipExponent (cs : List Char) : Decoded (List Char) :=
  match cs with
  | 'e' :: cs | 'E' :: cs =>
    match cs with
    | '-' :: cs | '+' :: cs => skipDigits cs
    | cs => skipDigits cs
  | cs => .ok cs

/-- An optional fraction and exponent that are not kept. -/
def skipFraction (cs : List Char) : Decoded (List Char) :=
  match cs with
  | '.' :: cs => do
    let cs ← skipDigits cs
    skipExponent cs
  | cs => skipExponent cs

/-- A number that is not kept, behind its sign; its size does not matter. -/
def skipNumber (cs : List Char) : Decoded (List Char) :=
  match cs with
  | '0' :: c :: cs => if c.isDigit then fails .malformedNumber else skipFraction (c :: cs)
  | cs => do
    let cs ← skipDigits cs
    skipFraction cs

/-- An open container. -/
inductive Frame where
  | array
  | object
deriving DecidableEq

/-- Where the skipping of a value stands. -/
inductive SkipState where
  /-- A value has to come. -/
  | value
  /-- A container has just been opened. -/
  | opened
  /-- An item or member has just ended. -/
  | ended
  /-- The key of a member has to come. -/
  | key

/-- One scalar that is not kept, or `none` where a container opens. -/
def skipScalar? (cs : List Char) : Decoded (Option Frame × List Char) :=
  match skipSpace cs with
  | [] => fails .endInValue
  | 'n' :: cs => do
    let ((), cs) ← literal ['u', 'l', 'l'] cs
    .ok (none, cs)
  | 't' :: cs => do
    let ((), cs) ← literal ['r', 'u', 'e'] cs
    .ok (none, cs)
  | 'f' :: cs => do
    let ((), cs) ← literal ['a', 'l', 's', 'e'] cs
    .ok (none, cs)
  | '"' :: cs => do
    let cs ← skipString cs
    .ok (none, cs)
  | '[' :: cs => .ok (some .array, cs)
  | '\x7b' :: cs => .ok (some .object, cs)
  | '-' :: cs => do
    let cs ← skipNumber cs
    .ok (none, cs)
  | c :: cs =>
    if c.isDigit then do
      let cs ← skipNumber (c :: cs)
      .ok (none, cs)
    else fails .noValue

/-- The key of a member that is not kept, with its colon. -/
def skipKey (cs : List Char) : Decoded (List Char) :=
  match skipSpace cs with
  | [] => fails .endInObject
  | '"' :: cs => do
    let cs ← skipString cs
    let ((), cs) ← colon cs
    .ok cs
  | _ => fails .keyWithoutQuote

/--
The rest of a value that is not kept, with the containers that are open, innermost first.
Containers may be nested to any depth. Every step but the opening of an object's first key takes a
character, so twice the length of the text bounds the steps.
-/
def skipFrom : Nat → List Frame → SkipState → List Char → Decoded (List Char)
  | 0, _, _, _ => fails .endInValue
  | steps + 1, frames, .value, cs => do
    match ← skipScalar? cs with
    | (some frame, cs) => skipFrom steps (frame :: frames) .opened cs
    | (none, cs) => skipFrom steps frames .ended cs
  | steps + 1, frames, .key, cs => do
    let cs ← skipKey cs
    skipFrom steps frames .value cs
  | _ + 1, [], _, cs => .ok cs
  | steps + 1, .array :: frames, state, cs =>
    match skipSpace cs with
    | [] => fails .endInArray
    | ']' :: cs => skipFrom steps frames .ended cs
    | c :: cs =>
      match state with
      | .opened => skipFrom steps (.array :: frames) .value (c :: cs)
      | _ => if c = ',' then skipFrom steps (.array :: frames) .value cs
             else fails .noItemSeparator
  | steps + 1, .object :: frames, state, cs =>
    match skipSpace cs with
    | [] => fails .endInObject
    | '\x7d' :: cs => skipFrom steps frames .ended cs
    | c :: cs =>
      match state with
      | .opened => skipFrom steps (.object :: frames) .key (c :: cs)
      | _ => if c = ',' then skipFrom steps (.object :: frames) .key cs
             else fails .noMemberSeparator

/-- A value that is not kept: its grammar is checked, its content is not. -/
def skipValue (cs : List Char) : Decoded (List Char) :=
  skipFrom (2 * cs.length + 2) [] .value cs

end ListQuery.Json.Reader
