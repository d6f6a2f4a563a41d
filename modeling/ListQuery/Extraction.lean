import ListQuery.Params
import ListQuery.Request

/-!
# From query parameters to a request

Three of the seven parameters are JSON texts. One that cannot be decoded is left out of the request
and reported; the others are not affected. The ranges are decoded one by one, so that a bad range
costs only itself.
-/

namespace ListQuery

/--
A parameter, or a part of one, that was left out, and why: the wording of its error, which
`DecodeError.message` gives without line and column.
-/
structure Diagnostic where
  parameter : String
  message : String
deriving DecidableEq

namespace Diagnostic

/-- The diagnostic as one line. -/
def text (d : Diagnostic) : String :=
  "invalid JSON in '" ++ d.parameter ++ "': " ++ d.message

/-- The object form of a diagnostic. -/
def toJson (d : Diagnostic) : Json :=
  .object [("parameter", .string d.parameter), ("message", .string d.message)]

end Diagnostic

namespace Params

/-- A parameter that holds JSON: what was decoded, and a diagnostic if that failed. -/
def decodeJson {α : Type} (d : Decoder α) (name : String) (text : Option String) :
    Option α × List Diagnostic :=
  match text with
  | none => (none, [])
  | some text =>
    match d.ofText text with
    | .ok a => (some a, [])
    | .error e => (none, [⟨name, e.message⟩])

section

variable {α : Type} {d : Decoder α} {name text : String}

theorem decodeJson_none : decodeJson d name none = (none, []) := rfl

theorem decodeJson_of_ok {a : α} (h : d.ofText text = .ok a) :
    decodeJson d name (some text) = (some a, []) := by
  rw [decodeJson, h]

theorem decodeJson_of_error {e : DecodeError} (h : d.ofText text = .error e) :
    decodeJson d name (some text) = (none, [⟨name, e.message⟩]) := by
  rw [decodeJson, h]

end

/-- The name of one range in diagnostics. -/
def rangeName (index : Nat) : String := "rangedFilters[" ++ toString index ++ "]"

theorem rangeName_eq (index : Nat) :
    rangeName index = "rangedFilters[" ++ toString index ++ "]" := rfl

/-- The ranges that can be decoded, counted from `index`, and a diagnostic for each other one. -/
def decodeRanges (index : Nat) : List Json → List RangeFilter × List Diagnostic
  | [] => ([], [])
  | v :: rest =>
    let (ranges, diagnostics) := decodeRanges (index + 1) rest
    match RangeFilter.decoder.ofJson v with
    | .ok r => (r :: ranges, diagnostics)
    | .error e => (ranges, ⟨rangeName index, e.message⟩ :: diagnostics)

/-- The request that parameters stand for, with a diagnostic for everything left out of it. -/
def extract (p : Params) : Request × List Diagnostic :=
  let (filters, filterDiagnostics) := decodeJson (.dictionary .json) "filters" p.filters
  let (searches, searchDiagnostics) := decodeJson (.dictionary .json) "searchFilters" p.searches
  let (values, rangesDiagnostics) := decodeJson (.list .json) "rangedFilters" p.ranges
  let (ranges, rangeDiagnostics) := decodeRanges 0 (values.getD [])
  ({ filters := filters.getD .empty
     searches := searches.getD .empty
     ranges
     orderKey := p.orderKey
     direction := p.direction.map Direction.ofString
     page := p.page.map PageParam.ofString
     rows := p.rows.map PageParam.ofString },
   filterDiagnostics ++ searchDiagnostics ++ rangesDiagnostics ++ rangeDiagnostics)

/-- The request alone. -/
def request (p : Params) : Request := p.extract.1

end Params

end ListQuery
