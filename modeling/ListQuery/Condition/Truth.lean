import ListQuery.Condition

/-!
# What a condition means

A condition is read over the answers to its tests: a valuation says for each test of a field, on the
listed entity or behind a relation, whether it holds. A conjunction holds if all its entries do, so an
empty one holds; a disjunction holds if one of its entries does, so an empty one does not.
-/

namespace ListQuery

/-- Whether a test holds: of a column behind a relation, or of the listed entity's own column. -/
abbrev Valuation := Option String → String → Predicate → Bool

namespace Condition

mutual

/-- Whether a condition holds below a relation; quantifiers and custom conditions are not read. -/
def holdsBehind (v : Valuation) (relation : Option String) : Condition → Bool
  | .and entries => allHold v relation entries
  | .or entries => anyHolds v relation entries
  | .field name predicate => v relation name predicate
  | .related relation _ body => holdsBehind v (some relation) body
  | .custom _ => true
  | .matchAll => true

/-- Whether all conditions hold. -/
def allHold (v : Valuation) (relation : Option String) : List Condition → Bool
  | [] => true
  | entry :: rest => holdsBehind v relation entry && allHold v relation rest

/-- Whether one of the conditions holds. -/
def anyHolds (v : Valuation) (relation : Option String) : List Condition → Bool
  | [] => false
  | entry :: rest => holdsBehind v relation entry || anyHolds v relation rest

end

/-- Whether a condition holds on the listed entity. -/
def holds (v : Valuation) (condition : Condition) : Bool := condition.holdsBehind v none

theorem allHold_eq_all (v : Valuation) (relation : Option String) (entries : List Condition) :
    allHold v relation entries = entries.all (holdsBehind v relation) := by
  induction entries with
  | nil => rfl
  | cons entry rest ih => rw [allHold, ih, List.all_cons]

theorem anyHolds_eq_any (v : Valuation) (relation : Option String) (entries : List Condition) :
    anyHolds v relation entries = entries.any (holdsBehind v relation) := by
  induction entries with
  | nil => rfl
  | cons entry rest ih => rw [anyHolds, ih, List.any_cons]

/-- A test at a path holds as its valuation says of the path's relation and column. -/
theorem holds_onPath (v : Valuation) (path : FieldPath) (predicate : Predicate) :
    (onPath path predicate).holds v = v path.relation? path.columnName predicate := by
  cases path <;> rfl

end Condition

end ListQuery
