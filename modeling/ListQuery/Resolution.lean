import ListQuery.Coercion.Predicate
import ListQuery.Mapping
import ListQuery.Query

/-!
# Resolution against the data model

A mapping resolves the fields of a compiled condition and of a compiled sort order: each is looked up
under its dotted path, with the relations around it in front, and becomes a test of the column behind
it. A field whose value does not fit its type, or that a custom function drops, disappears, and so do
groups that lose all their entries. A condition of which nothing is left becomes
`Condition.matchAll`.
-/

namespace ListQuery.Mapping

/--
The test of a field after its mapping: renamed, below the relation that the field lives on, and with
its value coerced. A custom function of the relation writes the whole condition instead.
-/
def resolveField (m : Mapping) (path name : String) (predicate : Predicate) : Option Condition :=
  let column := m.columnFor path name
  match m.relations.get? path with
  | none => (predicate.process (m.typeHandlers.get? path)).map (.field column)
  | some relation =>
    let handler := m.relationHandlers.get? path
    match handler.bind RelationHandler.custom with
    | some custom => (custom predicate.rawValue column).map .custom
    | none =>
      (predicate.process (m.typeHandlers.get? path)).map fun p =>
        .related relation (handler.bind RelationHandler.quantifier) (.field column p)

/-- A group of entries, or nothing if there are none. -/
def group (make : List Condition → Condition) : List Condition → Option Condition
  | [] => none
  | entries => some (make entries)

mutual

/-- A condition after its mapping; `scope` holds the relations around it, a dot behind each. -/
def resolveIn (m : Mapping) (scope : String) : Condition → Option Condition
  | .and entries => group .and (m.resolveEntries scope entries)
  | .or entries => group .or (m.resolveEntries scope entries)
  | .field name predicate => m.resolveField (scope ++ name) name predicate
  | .related relation quantifier body =>
    (m.resolveIn (scope ++ relation ++ ".") body).map (.related relation quantifier)
  | .custom value => some (.custom value)
  | .matchAll => none

/-- The entries that are left of a group. -/
def resolveEntries (m : Mapping) (scope : String) : List Condition → List Condition
  | [] => []
  | entry :: rest =>
    match m.resolveIn scope entry with
    | some entry => entry :: m.resolveEntries scope rest
    | none => m.resolveEntries scope rest

end

theorem resolveEntries_eq_filterMap (m : Mapping) (scope : String) (entries : List Condition) :
    m.resolveEntries scope entries = entries.filterMap (m.resolveIn scope) := by
  induction entries with
  | nil => rfl
  | cons entry rest ih =>
    rw [resolveEntries, List.filterMap_cons]
    cases m.resolveIn scope entry with
    | none => exact ih
    | some c => simp only [ih]

/-- A whole condition after its mapping. -/
def resolve (m : Mapping) (condition : Condition) : Condition :=
  (m.resolveIn "" condition).getD .matchAll

/--
A sort order after its mapping. A field on a relation is sorted by the column that its handler
names, or else by its own; a custom function takes the direction as a string, and without a result
the list is not sorted.
-/
def resolveOrder (m : Mapping) (order : SortOrder) : SortOrder :=
  match order with
  | .field name direction =>
    let column := m.columnFor name name
    match m.relations.get? name with
    | some relation =>
      let handler := m.relationHandlers.get? name
      match handler.bind RelationHandler.custom with
      | some custom =>
        match custom (.string direction.text) column with
        | some value => .custom value
        | none => .unsorted
      | none => .related relation ((handler.bind RelationHandler.sortColumn).getD column) direction
    | none => .field column direction
  | order => order

/-- A query after its mapping. -/
def resolveQuery (m : Mapping) (q : Query) : Query :=
  { q with condition := m.resolve q.condition, order := m.resolveOrder q.order }

end ListQuery.Mapping
