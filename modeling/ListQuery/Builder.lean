import ListQuery.Resolution
import ListQuery.Validation

/-!
# Query builders

A builder holds what is configured once, a specification, a mapping, and what to load with each
row, and answers for each request with its report and its query. Each configuration call replaces
what was configured before. The query does not depend on the specification, nor the report on
anything else.
-/

namespace ListQuery

/-- What is configured for the queries of a list. -/
structure Builder where
  specification : Option Specification
  mapping : Option Mapping
  including : Option Json
  selecting : Option Json

/-- A query with the report on its request. -/
structure BuildResult where
  query : Query
  report : Report

/-- The object form of a query with its report. -/
def BuildResult.toJson (r : BuildResult) : Json :=
  .object [("query", r.query.toJson), ("validation", r.report.toJson)]

namespace Builder

/-- Nothing configured. -/
def empty : Builder := ⟨none, none, none, none⟩

instance : Inhabited Builder := ⟨empty⟩

/-- Replace the specification, or take it away. -/
def setSpecification (b : Builder) (specification : Option Specification) : Builder :=
  { b with specification }

/-- Replace the mapping, or take it away. -/
def setMapping (b : Builder) (mapping : Option Mapping) : Builder := { b with mapping }

/-- Replace the specification. -/
def withSpecification (b : Builder) (s : Specification) : Builder := b.setSpecification (some s)

/-- Replace the mapping. -/
def withMapping (b : Builder) (m : Mapping) : Builder := b.setMapping (some m)

/-- Replace what to load with each row. -/
def withIncluding (b : Builder) (value : Json) : Builder := { b with including := some value }

/-- Replace which columns to load. -/
def withSelecting (b : Builder) (value : Json) : Builder := { b with selecting := some value }

/-- The report on a request. -/
def validate (b : Builder) (r : Request) : Report := r.validate b.specification

/-- The query of a request, whatever its report says. -/
def buildUnchecked (b : Builder) (r : Request) : Query :=
  let query := Query.ofRequest r
  let query := match b.mapping with
    | some m => m.resolveQuery query
    | none => query
  { query with including := b.including, selecting := b.selecting }

/-- The query of a request with its report. -/
def build (b : Builder) (r : Request) : BuildResult := ⟨b.buildUnchecked r, b.validate r⟩

/-- The query of a request that is not refused. -/
def tryBuild (b : Builder) (r : Request) : Except QueryError Query := do
  let result := b.build r
  let _ ← result.report.toExcept
  return result.query

/-- A query is refused for its report and for nothing else. -/
theorem tryBuild_eq_ok_iff {b : Builder} {r : Request} {q : Query} :
    b.tryBuild r = .ok q ↔ (b.validate r).isValid = true ∧ b.buildUnchecked r = q := by
  have h : b.tryBuild r = ((b.validate r).toExcept >>= fun _ => .ok (b.buildUnchecked r)) := rfl
  rw [h, Report.toExcept]
  cases (b.validate r).isValid with
  | true => simp [bind, Except.bind]
  | false => simp [bind, Except.bind]

/-- No mapping changes the window. -/
theorem window_buildUnchecked (b : Builder) (r : Request) :
    (b.buildUnchecked r).window = .ofParams r.page r.rows := by
  rw [buildUnchecked]
  cases b.mapping <;> rfl

end Builder

end ListQuery
