import ListQuery.Handler

/-!
# Mappings onto the data model

A mapping says where the fields that clients name are found in the data model: on which relation,
in which column, and how their values are treated. All four dictionaries are keyed by the dotted
path of a field. Custom functions are attached after a configuration has been read.
-/

namespace ListQuery

/-- Where the fields that clients name are found in the data model. -/
structure Mapping where
  /-- The relation that a field lives on. -/
  relations : Dict String
  /-- The column that a field is stored in. -/
  columns : Dict String
  typeHandlers : Dict TypeHandler
  relationHandlers : Dict RelationHandler

namespace Mapping

/-- The mapping that changes no name. -/
def empty : Mapping := ⟨.empty, .empty, .empty, .empty⟩

instance : Inhabited Mapping := ⟨empty⟩

/-- Every member of a configuration may be left out. -/
def decoder : Decoder Mapping :=
  .record "TransformConfig"
    [ .optional "fieldMappings" (.dictionary .string) fun relations m => { m with relations },
      .optional "fieldNameMappings" (.dictionary .string) fun columns m => { m with columns },
      .optional "fieldTypeHandlers" (.dictionary TypeHandler.decoder)
        fun typeHandlers m => { m with typeHandlers },
      .optional "relationHandlers" (.dictionary RelationHandler.decoder)
        fun relationHandlers m => { m with relationHandlers } ]
    empty

/-- The configurable part of a mapping as an object. -/
def toJson (m : Mapping) : Json :=
  .object
    [ ("fieldMappings", .object (m.relations.entries.map fun e => (e.1, .string e.2))),
      ("fieldNameMappings", .object (m.columns.entries.map fun e => (e.1, .string e.2))),
      ("fieldTypeHandlers", .object (m.typeHandlers.entries.map fun e => (e.1, e.2.toJson))),
      ("relationHandlers", .object (m.relationHandlers.entries.map fun e => (e.1, e.2.toJson))) ]

/-- Let a field live on a relation. -/
def moveTo (m : Mapping) (field relation : String) : Mapping :=
  { m with relations := m.relations.insert field relation }

/-- Let a field be stored in a column. -/
def rename (m : Mapping) (field column : String) : Mapping :=
  { m with columns := m.columns.insert field column }

/-- Treat the values of a field by a handler. -/
def withTypeHandler (m : Mapping) (field : String) (h : TypeHandler) : Mapping :=
  { m with typeHandlers := m.typeHandlers.insert field h }

/-- Treat a field that lives on a relation by a handler. -/
def withRelationHandler (m : Mapping) (field : String) (h : RelationHandler) : Mapping :=
  { m with relationHandlers := m.relationHandlers.insert field h }

/-- Attach a custom function to the type handler of a field, which may be new. -/
def withCustomType (m : Mapping) (field : String) (f : Json → Option Json) : Mapping :=
  let h := (m.typeHandlers.get? field).getD (.ofType .string)
  m.withTypeHandler field { h with custom := some f }

/-- Attach a custom function to the relation handler of a field, which may be new. -/
def withCustomRelation (m : Mapping) (field : String) (f : Json → String → Option Json) :
    Mapping :=
  let h := (m.relationHandlers.get? field).getD (.ofCardinality .one)
  m.withRelationHandler field { h with custom := some f }

/-- The column of a field path, or `default` if the mapping does not rename it. -/
def columnFor (m : Mapping) (path default : String) : String := (m.columns.get? path).getD default

end Mapping

end ListQuery
