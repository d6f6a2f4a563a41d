import ListQuery.Bounded
import ListQuery.Decimal.Shortest
import ListQuery.Dict

/-!
# JSON values

Values of requests, conditions and configurations.

A number is an integer of 64 bits, signed or unsigned, or a finite binary64 number. The two kinds
are kept apart: `1` and `1.0` are different values and are written differently.

Objects list their members in order. The type does not keep an object from repeating a key; an
object that was read from a text never does, since its members are collected in a dictionary.
-/

namespace ListQuery

/-! ### Numbers -/

/-- The integers that a JSON number holds exactly: from `-2 ^ 63` to `2 ^ 64 - 1`. -/
abbrev JsonInteger := Bounded (-9223372036854775808) 18446744073709551615

/-- A signed 64-bit integer as a JSON integer. -/
def Signed64.toJsonInteger (n : Signed64) : JsonInteger :=
  ⟨n.val, n.lo_le, by have := n.le_hi; omega⟩

/-- An unsigned 64-bit integer as a JSON integer. -/
def Unsigned64.toJsonInteger (n : Unsigned64) : JsonInteger :=
  ⟨n.val, by have := n.lo_le; omega, n.le_hi⟩

/-- The decimal digits of an integer, after a minus sign if it is negative. -/
def integerText (n : Int) : List Char :=
  match n with
  | .ofNat n => Nat.toDigits 10 n
  | .negSucc n => '-' :: Nat.toDigits 10 (n + 1)

/-- A JSON number. -/
inductive JsonNumber where
  | integer (n : JsonInteger)
  | real (x : Binary64)
deriving DecidableEq

namespace JsonNumber

/-- Reals are written out from `0.00001` up to sixteen digits before the point. -/
def layout : Decimal.Layout := ⟨-4, 16⟩

/-- The shortest text that reads back to the number; a real always shows a point or an exponent. -/
def text : JsonNumber → List Char
  | .integer n => integerText n.val
  | .real x => (if x.negative then ['-'] else []) ++ layout.write (Decimal.shortest x)

/-- Neither the integer zero nor one of the two real zeros. -/
def isNonzero : JsonNumber → Bool
  | .integer n => n.val != 0
  | .real x => !x.isZero

end JsonNumber

/-! ### Values -/

/-- A JSON value. -/
inductive Json where
  | null
  | bool (b : Bool)
  | number (n : JsonNumber)
  | string (s : String)
  | array (items : List Json)
  | object (members : List (String × Json))
deriving Inhabited

namespace Json

mutual

/-- Equality of values, decided member by member. -/
def decEq : (a b : Json) → Decidable (a = b)
  | .null, .null => isTrue rfl
  | .bool a, .bool b => decidable_of_iff (a = b) (by simp)
  | .number a, .number b => decidable_of_iff (a = b) (by simp)
  | .string a, .string b => decidable_of_iff (a = b) (by simp)
  | .array a, .array b =>
    match decEqItems a b with
    | isTrue h => isTrue (by rw [h])
    | isFalse h => isFalse (by simpa using h)
  | .object a, .object b =>
    match decEqMembers a b with
    | isTrue h => isTrue (by rw [h])
    | isFalse h => isFalse (by simpa using h)
  | .null, .bool _ | .null, .number _ | .null, .string _ | .null, .array _ | .null, .object _
  | .bool _, .null | .bool _, .number _ | .bool _, .string _ | .bool _, .array _
  | .bool _, .object _
  | .number _, .null | .number _, .bool _ | .number _, .string _ | .number _, .array _
  | .number _, .object _
  | .string _, .null | .string _, .bool _ | .string _, .number _ | .string _, .array _
  | .string _, .object _
  | .array _, .null | .array _, .bool _ | .array _, .number _ | .array _, .string _
  | .array _, .object _
  | .object _, .null | .object _, .bool _ | .object _, .number _ | .object _, .string _
  | .object _, .array _ => isFalse (by simp)

/-- Equality of the items of two arrays. -/
def decEqItems : (a b : List Json) → Decidable (a = b)
  | [], [] => isTrue rfl
  | [], _ :: _ | _ :: _, [] => isFalse (by simp)
  | a :: as, b :: bs =>
    match decEq a b, decEqItems as bs with
    | isTrue h, isTrue h' => isTrue (by rw [h, h'])
    | isFalse h, _ => isFalse (by simp [h])
    | _, isFalse h => isFalse (by simp [h])

/-- Equality of the members of two objects. -/
def decEqMembers : (a b : List (String × Json)) → Decidable (a = b)
  | [], [] => isTrue rfl
  | [], _ :: _ | _ :: _, [] => isFalse (by simp)
  | (k, a) :: as, (l, b) :: bs =>
    match decEq a b, decEqMembers as bs with
    | isTrue h, isTrue h' => decidable_of_iff (k = l) (by simp [h, h'])
    | isFalse h, _ => isFalse (by simp [h])
    | _, isFalse h => isFalse (by simp [h])

end

instance : DecidableEq Json := decEq

/-- The integer `n`, which has to fit into 64 bits. -/
def ofInteger (n : JsonInteger) : Json := .number (.integer n)

/-- An object with one member. -/
def entry (key : String) (value : Json) : Json := .object [(key, value)]

/-- An object with the members of a dictionary. -/
def ofDict (d : Dict Json) : Json := .object d.entries

/-- An array of strings. -/
def strings (items : List String) : Json := .array (items.map .string)

/-- The value `null`. -/
def isNull : Json → Bool
  | .null => true
  | _ => false

/-- The value under a key of an object. -/
def get? (value : Json) (key : String) : Option Json :=
  match value with
  | .object members => Entries.get? key members
  | _ => none

theorem isNull_iff {value : Json} : value.isNull = true ↔ value = .null := by
  cases value <;> simp [isNull]

end Json

end ListQuery
