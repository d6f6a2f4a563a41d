import ListQuery.Condition
import ListQuery.Json.Decoder.Record

/-!
# Field handlers

How the values of a field are treated: by its declared type, and, if it lives on a relation, by how
many rows the relation leads to. Either handler can have a custom function, which takes over what it
is for; a configuration in JSON holds everything but the functions. For people who look at a
configuration, a handler is also shown on one line.
-/

namespace ListQuery

/-! ### Values on one line -/

namespace Text.Summary

/-- A name with its first letter in upper case. -/
def capitalized (name : String) : String :=
  match name.toList with
  | [] => ""
  | c :: cs => String.ofList (c.toUpper :: cs)

/-- A part that may be absent. -/
def optional (text : Option String) : String :=
  match text with
  | none => "None"
  | some text => "Some(" ++ text ++ ")"

/-- Named parts of a value on one line. -/
def parts (name : String) (fields : List (String × String)) : String :=
  name ++ " \x7b " ++ ", ".intercalate (fields.map fun f => f.1 ++ ": " ++ f.2) ++ " \x7d"

end Text.Summary

/-! ### Types and cardinalities -/

open Text

/-- The declared type of a field. -/
inductive FieldType where
  | string
  | number
  | boolean
  | date
  /-- Left to a custom function. -/
  | custom
deriving DecidableEq

namespace FieldType

/-- All types, in the order in which messages list them. -/
def all : List FieldType := [.string, .number, .boolean, .date, .custom]

/-- The name of a type in configurations. -/
def name : FieldType → String
  | .string => "string"
  | .number => "number"
  | .boolean => "boolean"
  | .date => "date"
  | .custom => "custom"

/-- Types by name. -/
def decoder : Decoder FieldType := .choice (all.map fun t => (t.name, t))

theorem mem_all (t : FieldType) : t ∈ all := by cases t <;> decide

end FieldType

/-- How many rows a relation leads to. -/
inductive Cardinality where
  | one
  | many
deriving DecidableEq

namespace Cardinality

/-- Both cardinalities, in the order in which messages list them. -/
def all : List Cardinality := [.one, .many]

/-- The name of a cardinality in configurations. -/
def name : Cardinality → String
  | .one => "one"
  | .many => "many"

/-- Cardinalities by name. -/
def decoder : Decoder Cardinality := .choice (all.map fun c => (c.name, c))

theorem mem_all (c : Cardinality) : c ∈ all := by cases c <;> decide

end Cardinality

/-! ### Handlers -/

/-- How the values of a field are treated. -/
structure TypeHandler where
  type : FieldType
  /-- The operator that the treated value is compared by; the type has a default. -/
  operator : Option Operator
  /-- Takes the raw value to a test in the store's form; without a result the field is dropped. -/
  custom : Option (Json → Option Json)

namespace TypeHandler

/-- The handler of a type, with nothing else configured. -/
def ofType (type : FieldType) : TypeHandler := ⟨type, none, none⟩

/-- Fields are strings unless a configuration says otherwise. -/
def decoder : Decoder TypeHandler :=
  .record "FieldTypeHandler"
    [ .optional "type" FieldType.decoder fun type h => { h with type },
      .optional "operator" (.optional Operator.decoder) fun operator h => { h with operator } ]
    (ofType .string)

/-- The configurable part of a handler as an object. -/
def toJson (h : TypeHandler) : Json :=
  .object <| ("type", .string h.type.name) ::
    (h.operator.toList.map fun o => ("operator", .string o.name))

/-- A handler on one line; of a custom function only its presence shows. -/
def summary (h : TypeHandler) : String :=
  Summary.parts "FieldTypeHandler"
    [ ("field_type", Summary.capitalized h.type.name),
      ("operator", Summary.optional (h.operator.map fun o => Summary.capitalized o.name)),
      ("custom_handler", toString h.custom.isSome) ]

end TypeHandler

/-- How a field that lives on a relation is treated. -/
structure RelationHandler where
  cardinality : Cardinality
  quantifier? : Option Quantifier
  /-- The column of the related entity that the list is sorted by. -/
  sortColumn : Option String
  /-- Takes the raw value and the column to a condition in the store's form. -/
  custom : Option (Json → String → Option Json)

namespace RelationHandler

/-- The handler of a cardinality, with nothing else configured. -/
def ofCardinality (cardinality : Cardinality) : RelationHandler := ⟨cardinality, none, none, none⟩

/-- Relations lead to one row unless a configuration says otherwise. -/
def decoder : Decoder RelationHandler :=
  .record "RelationHandler"
    [ .optional "type" Cardinality.decoder fun cardinality h => { h with cardinality },
      .optional "relationQuery" (.optional Quantifier.decoder)
        fun quantifier? h => { h with quantifier? },
      .optional "nestedField" (.optional .string) fun sortColumn h => { h with sortColumn } ]
    (ofCardinality .one)

/-- The configurable part of a handler as an object. -/
def toJson (h : RelationHandler) : Json :=
  .object <| ("type", .string h.cardinality.name) ::
    (h.quantifier?.toList.map fun q => ("relationQuery", Json.string q.name)) ++
    (h.sortColumn.toList.map fun c => ("nestedField", Json.string c))

/-- A handler on one line; of a custom function only its presence shows. -/
def summary (h : RelationHandler) : String :=
  Summary.parts "RelationHandler"
    [ ("cardinality", Summary.capitalized h.cardinality.name),
      ("relation_query", Summary.optional (h.quantifier?.map fun q => Summary.capitalized q.name)),
      ("nested_field", Summary.optional (h.sortColumn.map Text.quoted)),
      ("custom_handler", toString h.custom.isSome) ]

/--
The quantifier of a condition on the relation. Many rows need one, so it is `some` by default; one
row has one only if it is configured.
-/
def quantifier (h : RelationHandler) : Option Quantifier :=
  match h.cardinality with
  | .many => some (h.quantifier?.getD .some)
  | .one => h.quantifier?

end RelationHandler

end ListQuery
