import ListQuery.Json.Reader.Token

/-!
# Reading numbers

A number without point and exponent is an integer if it fits into 64 bits, and every other number
is real. The digits of a real number are taken into one integer below `2 ^ 64`; the ones that do
not fit are dropped and only counted.
-/

namespace ListQuery.Json.Reader

/-- The longest run of ASCII digits in front, and what follows it. -/
def digitRun (cs : List Char) : List Char × List Char :=
  (cs.takeWhile Char.isDigit, cs.dropWhile Char.isDigit)

/-- The value of an ASCII digit. -/
def digitValue (c : Char) : Nat := c.toNat - 48

/--
Digits appended to a number as long as it stays below `2 ^ 64`, and how many digits were left over
from the first one that does not fit.
-/
def appendDigits (start : Nat) : List Char → Nat × Nat
  | [] => (start, 0)
  | d :: ds =>
    let next := start * 10 + digitValue d
    if next < Nat.pow 2 64 then appendDigits next ds else (start, ds.length + 1)

/-- A real number, unless it is too large. -/
def realNumber (negative : Bool) (digits : Nat) (exponent : Int) (cs : List Char) :
    Decoded (JsonNumber × List Char) :=
  match Binary64.ofScaled? negative digits exponent with
  | some x => .ok (.real x, cs)
  | none => fails .numberTooLarge

/-- The digits of an exponent, which follow `e` and a sign. -/
def exponentDigits (cs : List Char) : Decoded (Nat × List Char) :=
  match digitRun cs with
  | ([], []) => fails .endInValue
  | ([], _ :: _) => fails .malformedNumber
  | (ds, cs) => .ok (Nat.ofDigitChars 10 ds 0, cs)

/-- An optional exponent, and the number it ends. -/
def exponentPart (negative : Bool) (digits : Nat) (exponent : Int) (cs : List Char) :
    Decoded (JsonNumber × List Char) :=
  match cs with
  | 'e' :: cs | 'E' :: cs =>
    match cs with
    | '-' :: cs => do
      let (e, cs) ← exponentDigits cs
      realNumber negative digits (exponent - e) cs
    | '+' :: cs => do
      let (e, cs) ← exponentDigits cs
      realNumber negative digits (exponent + e) cs
    | cs => do
      let (e, cs) ← exponentDigits cs
      realNumber negative digits (exponent + e) cs
  | cs => realNumber negative digits exponent cs

/--
The fraction behind a point, and what follows it. Digits that do not fit into 64 bits are dropped; a
dropped digit of the fraction does not count for the exponent either.
-/
def fractionPart (negative : Bool) (digits : Nat) (exponent : Int) (cs : List Char) :
    Decoded (JsonNumber × List Char) :=
  match digitRun cs with
  | ([], []) => fails .endInValue
  | ([], _ :: _) => fails .malformedNumber
  | (ds, cs) =>
    let (digits, dropped) := appendDigits digits ds
    exponentPart negative digits (exponent - (ds.length - dropped : Nat)) cs

/-- An integer without point and exponent: one that does not fit into 64 bits is a real number. -/
def wholeNumber (negative : Bool) (digits : Nat) (cs : List Char) :
    Decoded (JsonNumber × List Char) :=
  if negative then
    if digits = 0 then realNumber true 0 0 cs
    else
      match Bounded.ofInt? (-(digits : Int)) with
      | some n => .ok (.integer n, cs)
      | none => realNumber true digits 0 cs
  else
    match Bounded.ofInt? (digits : Int) with
    | some n => .ok (.integer n, cs)
    | none => realNumber false digits 0 cs

/-- What follows the digits in front of the point, of which some may have been dropped. -/
def afterDigits (negative : Bool) (digits dropped : Nat) (cs : List Char) :
    Decoded (JsonNumber × List Char) :=
  match cs with
  | '.' :: cs => fractionPart negative digits dropped cs
  | 'e' :: _ | 'E' :: _ => exponentPart negative digits dropped cs
  | cs =>
    if dropped = 0 then wholeNumber negative digits cs
    else realNumber negative digits dropped cs

/-- A number behind its sign. -/
def unsignedNumber (negative : Bool) (cs : List Char) : Decoded (JsonNumber × List Char) :=
  match cs with
  | [] => fails .endInValue
  | '0' :: cs =>
    match cs with
    | c :: _ => if c.isDigit then fails .malformedNumber else afterDigits negative 0 0 cs
    | [] => afterDigits negative 0 0 []
  | c :: _ =>
    if c.isDigit then
      let (ds, cs) := digitRun cs
      let (digits, dropped) := appendDigits 0 ds
      afterDigits negative digits dropped cs
    else fails .malformedNumber

/-- A number, from its sign or its first digit on. -/
def number (cs : List Char) : Decoded (JsonNumber × List Char) :=
  match cs with
  | '-' :: cs => unsignedNumber true cs
  | cs => unsignedNumber false cs

end ListQuery.Json.Reader
