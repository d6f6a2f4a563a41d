import ListQuery.Coercion.Value
import ListQuery.Handler

/-!
# Predicates with coerced values

The value that a predicate asks for is taken out of its wrapper (`Predicate.rawValue`), read as the
declared type of its field, and wrapped again (`Predicate.process`). A value that cannot be read as
its type drops the field, and a range drops with either of its bounds: `none` stands for a dropped
field everywhere here.
-/

namespace ListQuery

/-! ### Raw values -/

namespace Json

/--
A value without its wrapper. An object counts as a wrapper: of the value under a known operator if
it has one, otherwise of its first value. What `equals` wraps is unwrapped again.
-/
def unwrap : Json → Json
  | .object members =>
    match Entries.get? "contains" members with
    | some inner => inner
    | none =>
      match unwrapEquals members with
      | some inner => inner
      | none =>
        match (Entries.get? "startsWith" members).or (Entries.get? "endsWith" members) with
        | some inner => inner
        | none =>
          match members with
          | (_, first) :: _ => first
          | [] => .object []
  | v => v
where
  /-- The unwrapped value under the key `equals`. -/
  unwrapEquals : List (String × Json) → Option Json
    | [] => none
    | (key, v) :: rest => if key = "equals" then some v.unwrap else unwrapEquals rest

end Json

/-! ### Predicates -/

namespace Predicate

/-- The value that a predicate asks for, as the client wrote it; a range gives both bounds. -/
def rawValue : Predicate → Json
  | .equals v => v.unwrap
  | .custom v => v.unwrap
  | .contains v => v
  | .compare operator v => if operator.wrapsRawValue then v.unwrap else v
  | .range lower upper => rangeObject lower upper

/-- The predicate of a value without a declared type: strings search, objects are taken as tests. -/
def ofRaw (raw : Json) : Predicate :=
  match raw with
  | .string _ => .contains raw
  | .object _ => .custom raw
  | _ => .compare .equals raw

end Predicate

namespace TypeHandler

/-- The coercion of range bounds: numbers and dates are read, other types keep their bounds. -/
def coerceBound (type : FieldType) (v : Json) : Option Json :=
  match type with
  | .number => v.toNumber?
  | .date => v.toDate?
  | .string | .boolean | .custom => some v

/-- The predicate of a raw value under a handler. -/
def ofRaw (h : TypeHandler) (raw : Json) : Option Predicate :=
  match h.custom with
  | some custom => (custom raw).map .custom
  | none =>
    match h.type with
    | .number => raw.toNumber?.map (.compare (h.operator.getD .equals))
    | .boolean => some (.compare .equals (.bool raw.toBoolean))
    | .date => raw.toDate?.map (.compare (h.operator.getD .equals))
    | .string => some (.compare (h.operator.getD .contains) raw)
    | .custom => some (.ofRaw raw)

/-- The range of two bounds under a handler; both are kept or the range is dropped. -/
def ofRange (h : TypeHandler) (lower upper : Json) : Option Predicate :=
  match h.custom with
  | some custom => (custom (Predicate.rangeObject lower upper)).map .custom
  | none => do
    let lower ← coerceBound h.type lower
    let upper ← coerceBound h.type upper
    return .range lower upper

end TypeHandler

/-- A predicate as the type handler of its field has it, or none if its value does not fit. -/
def Predicate.process (p : Predicate) (handler : Option TypeHandler) : Option Predicate :=
  match p, handler with
  | .range lower upper, none => some (.range lower upper)
  | .range lower upper, some h => h.ofRange lower upper
  | p, none => some (.ofRaw p.rawValue)
  | p, some h => h.ofRaw p.rawValue

end ListQuery
