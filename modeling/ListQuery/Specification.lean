import ListQuery.Mapping
import ListQuery.Request

/-!
# Specifications

What a client may ask of a list: which fields and relations, and how many rows per page. An absent
list of allowed fields or relations allows all of them; an empty one allows none.

Compiling and resolving never fail. What can fail is loading a configuration, and building a query
from a request that its specification refuses; these are the errors of the library (`QueryError`).
-/

namespace ListQuery

/-! ### Errors -/

/-- An error that a caller of the library gets. -/
inductive QueryError where
  /-- The specification refuses the request; all errors of the report, in order. -/
  | validationFailed (errors : List String)
  /-- A configuration could not be loaded. -/
  | invalidConfig (subject : String) (cause : Option DecodeError)

namespace QueryError

/--
The wording of an error: a single refusal stands for itself. A cause is worded by
`DecodeError.message`, and so without its place in the text.
-/
def message : QueryError → String
  | .validationFailed [error] => error
  | .validationFailed errors => "Validation failed: " ++ ", ".intercalate errors
  | .invalidConfig subject (some cause) => subject ++ ": " ++ cause.message
  | .invalidConfig subject none => subject

/-- What the client may see: refusals, but no faults of a configuration. -/
def userMessages : QueryError → List String
  | .validationFailed errors => errors
  | .invalidConfig _ _ => []

/-- The error that lies behind this one. -/
def cause? : QueryError → Option DecodeError
  | .validationFailed _ => none
  | .invalidConfig _ cause => cause

end QueryError

/-! ### Specifications -/

/-- What a client may ask for. -/
@[ext] structure Specification where
  /-- Field paths that are expected; others draw a warning. -/
  allowedFields : Option (List String)
  /-- Field paths that are refused. -/
  forbiddenFields : List String
  /-- Relations that paths may go through; others are refused. -/
  allowedRelations : Option (List String)
  /-- The most rows that a page may have. -/
  maxPageSize : Option Unsigned64
deriving DecidableEq

namespace Specification

/-- The specification that refuses no field and no page size. -/
def empty : Specification := ⟨none, [], none, none⟩

instance : Inhabited Specification := ⟨empty⟩

/-- Every member of a specification may be left out. -/
def decoder : Decoder Specification :=
  .record "Specification"
    [ .optional "allowedFields" (.optional (.list .string))
        fun allowedFields s => { s with allowedFields },
      .optional "forbiddenFields" (.list .string)
        fun forbiddenFields s => { s with forbiddenFields },
      .optional "allowedRelations" (.optional (.list .string))
        fun allowedRelations s => { s with allowedRelations },
      .optional "maxPageSize" (.optional .unsigned)
        fun maxPageSize s => { s with maxPageSize } ]
    empty

/-- Load a specification from JSON text. -/
def ofText (text : String) : Except QueryError Specification :=
  (decoder.ofText text).mapError fun e => .invalidConfig "Invalid specification" (some e)

/-- Expect these fields. -/
def allowFields (s : Specification) (fields : List String) : Specification :=
  { s with allowedFields := some fields }

/-- Refuse these fields. -/
def forbidFields (s : Specification) (fields : List String) : Specification :=
  { s with forbiddenFields := fields }

/-- Let paths go through these relations only. -/
def allowRelations (s : Specification) (relations : List String) : Specification :=
  { s with allowedRelations := some relations }

/-- Bound the number of rows of a page. -/
def withMaxPageSize (s : Specification) (size : Unsigned64) : Specification :=
  { s with maxPageSize := some size }

/-- The object form of a specification, without what it leaves open. -/
def toJson (s : Specification) : Json :=
  .object <|
    Request.optionalMember "allowedFields" (s.allowedFields.map .strings) ++
    Request.optionalMember "forbiddenFields"
      (if s.forbiddenFields.isEmpty then none else some (.strings s.forbiddenFields)) ++
    Request.optionalMember "allowedRelations" (s.allowedRelations.map .strings) ++
    Request.optionalMember "maxPageSize" (s.maxPageSize.map fun n => .ofInteger n.toJsonInteger)

end Specification

/-- Load a mapping from JSON text; custom functions are attached afterwards. -/
def Mapping.ofText (text : String) : Except QueryError Mapping :=
  (Mapping.decoder.ofText text).mapError fun e =>
    .invalidConfig "Invalid transform configuration" (some e)

end ListQuery
