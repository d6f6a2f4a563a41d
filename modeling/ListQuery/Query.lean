import ListQuery.Condition
import ListQuery.Request
import ListQuery.Window

/-!
# Compiled queries

A request compiles to a condition, a sort order and a page window. Filters and ranges all have to
hold; of the searches at least one; of the values of one filter at least one. Compilation never
fails: odd field paths are split like any other.
-/

namespace ListQuery

/-- The members of a dictionary whose value is not `null`. -/
def Dict.present (d : Dict Json) : List (String × Json) :=
  d.entries.filter fun member => !member.2.isNull

theorem Dict.mem_present {d : Dict Json} {member : String × Json} :
    member ∈ d.present ↔ member ∈ d.entries ∧ member.2 ≠ .null := by
  simp [Dict.present, ← Json.isNull_iff]

/-- No value is left exactly if all of them are `null`. -/
theorem Dict.present_eq_nil_iff {d : Dict Json} :
    d.present = [] ↔ ∀ key value, (key, value) ∈ d.entries → value = .null := by
  simp only [List.eq_nil_iff_forall_not_mem, Dict.mem_present, Prod.forall, not_and, ne_eq,
    Classical.not_not]

/-- Where no value is `null`, nothing is left out. -/
theorem Dict.present_eq_entries {d : Dict Json}
    (h : ∀ key value, (key, value) ∈ d.entries → value ≠ .null) : d.present = d.entries := by
  refine List.filter_eq_self.2 fun member hmem => ?_
  rw [Bool.not_eq_true', ← Bool.not_eq_true, Json.isNull_iff]
  exact h member.1 member.2 hmem

namespace Condition

/-- The condition of one filter: equality, with any one of the values if there are several. -/
def ofFilter (member : String × Json) : Condition :=
  match member.2 with
  | .array options => .or (options.map fun v => .onField member.1 (.equals v))
  | v => .onField member.1 (.equals v)

/-- The conditions of the filters, in their order. -/
def ofFilters (filters : Dict Json) : List Condition := filters.present.map ofFilter

/-- The condition of one search. -/
def ofSearch (member : String × Json) : Condition := .onField member.1 (.contains member.2)

/-- The condition of the searches together, if there are any. -/
def ofSearches? (searches : Dict Json) : Option Condition :=
  match searches.present.map ofSearch with
  | [] => none
  | [condition] => some condition
  | conditions => some (.or conditions)

/-- Searches have no condition exactly if no value is there. -/
theorem ofSearches?_eq_none_iff {searches : Dict Json} :
    ofSearches? searches = none ↔ searches.present = [] := by
  unfold ofSearches?
  match searches.present with
  | [] => simp
  | [_] => simp
  | _ :: _ :: _ => simp

/-- The condition of one range. -/
def ofRange (r : RangeFilter) : Condition := .onField r.key (.range r.start r.stop)

/-- The conditions of the ranges, in their order. -/
def ofRanges (ranges : List RangeFilter) : List Condition := ranges.map ofRange

/-- The condition of a request: filters, then searches, then ranges. -/
def ofRequest (r : Request) : Condition :=
  .and (ofFilters r.filters ++ (ofSearches? r.searches).toList ++ ofRanges r.ranges)

end Condition

/-- The order of a request: by its key, dots included, ascending unless it says otherwise. -/
def SortOrder.ofRequest (r : Request) : SortOrder :=
  match r.orderKey with
  | none => .unsorted
  | some key => .field key (r.direction.getD .asc)

/-- A query in the terms of the data store. -/
structure Query where
  condition : Condition
  order : SortOrder
  window : Window
  /-- Related rows to load with each row. -/
  including : Option Json
  /-- Columns to load. -/
  selecting : Option Json

namespace Query

/-- The query of a request. -/
def ofRequest (r : Request) : Query where
  condition := .ofRequest r
  order := .ofRequest r
  window := .ofParams r.page r.rows
  including := none
  selecting := none

/-- The object form of a query. -/
def toJson (q : Query) : Json :=
  .object <|
    [ ("where", q.condition.toJson), ("orderBy", q.order.toJson),
      ("take", .ofInteger q.window.take.toJsonInteger),
      ("skip", .ofInteger q.window.skip.toJsonInteger) ] ++
    Request.optionalMember "include" q.including ++
    Request.optionalMember "select" q.selecting

end Query

end ListQuery
