import ListQuery.Json.Decoder.Basic

/-!
# Predicates

What is asked of a single field: equality with a value, a substring, an inclusive range, a
comparison by one of the data store's operators, or a test that a custom function has written.
`toJson` gives the store's own form of a predicate; equality is written as the bare value.
-/

namespace ListQuery

/-- The comparison operators of the data store. -/
inductive Operator where
  | equals
  | not
  | isIn
  | notIn
  | lt
  | lte
  | gt
  | gte
  | contains
  | startsWith
  | endsWith
  | search
deriving DecidableEq

namespace Operator

/-- All operators, in the order in which messages list them. -/
def all : List Operator :=
  [.equals, .not, .isIn, .notIn, .lt, .lte, .gt, .gte, .contains, .startsWith, .endsWith, .search]

/-- The name of an operator in conditions and configurations. -/
def name : Operator → String
  | .equals => "equals"
  | .not => "not"
  | .isIn => "in"
  | .notIn => "notIn"
  | .lt => "lt"
  | .lte => "lte"
  | .gt => "gt"
  | .gte => "gte"
  | .contains => "contains"
  | .startsWith => "startsWith"
  | .endsWith => "endsWith"
  | .search => "search"

/-- Operators whose operand is the value as the client wrote it, rather than a bound. -/
def wrapsRawValue : Operator → Bool
  | .equals | .contains | .startsWith | .endsWith => true
  | _ => false

/-- Operators by name. -/
def decoder : Decoder Operator := .choice (all.map fun o => (o.name, o))

theorem mem_all (o : Operator) : o ∈ all := by cases o <;> decide

end Operator

/-- The test of a single field. -/
inductive Predicate where
  /-- The field has this value. -/
  | equals (value : Json)
  /-- The field contains this value. -/
  | contains (value : Json)
  /-- The field lies between two bounds, both included. -/
  | range (lower upper : Json)
  /-- The field compares to the value by an operator. -/
  | compare (operator : Operator) (value : Json)
  /-- A test in the store's own form. -/
  | custom (value : Json)
deriving DecidableEq

namespace Predicate

/-- The object form of a range. -/
def rangeObject (lower upper : Json) : Json := .object [("gte", lower), ("lte", upper)]

/-- The store's form of a predicate. -/
def toJson : Predicate → Json
  | .equals value => value
  | .contains value => .entry "contains" value
  | .range lower upper => rangeObject lower upper
  | .compare operator value => .entry operator.name value
  | .custom value => value

/-- A range of two bounds. -/
def isRange : Predicate → Bool
  | .range _ _ => true
  | _ => false

end Predicate

end ListQuery
