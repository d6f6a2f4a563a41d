import ListQuery.FieldPath
import ListQuery.Predicate

/-!
# Conditions

Boolean conditions on rows, as trees: conjunctions, disjunctions, tests of a field, conditions on
related rows, and conditions in the store's own form. `toJson` gives the store's form of a tree.
-/

namespace ListQuery

/-- How a condition on related rows counts for the row that they belong to. -/
inductive Quantifier where
  /-- At least one related row meets it. -/
  | some
  /-- All related rows meet it. -/
  | every
  /-- No related row meets it. -/
  | none
  /-- The one related row meets it. -/
  | is
  /-- The one related row does not meet it. -/
  | isNot
deriving DecidableEq

namespace Quantifier

/-- All quantifiers, in the order in which messages list them. -/
def all : List Quantifier := [.some, .every, .none, .is, .isNot]

/-- The name of a quantifier in conditions and configurations. -/
def name : Quantifier → String
  | .some => "some"
  | .every => "every"
  | .none => "none"
  | .is => "is"
  | .isNot => "isNot"

/-- Quantifiers by name. -/
def decoder : Decoder Quantifier := .choice (all.map fun q => (q.name, q))

theorem mem_all (q : Quantifier) : q ∈ all := by cases q <;> decide

end Quantifier

/-- A condition on rows. -/
inductive Condition where
  /-- All entries hold. -/
  | and (entries : List Condition)
  /-- At least one entry holds. -/
  | or (entries : List Condition)
  /-- A field passes a test. -/
  | field (name : String) (predicate : Predicate)
  /-- The rows behind a relation meet a condition. -/
  | related (relation : String) (quantifier : Option Quantifier) (body : Condition)
  /-- A condition in the store's own form. -/
  | custom (value : Json)
  /-- No condition: every row. -/
  | matchAll
deriving Inhabited

namespace Condition

/-- A test of the column at the end of a path, below its relation if it has one. -/
def onPath (path : FieldPath) (predicate : Predicate) : Condition :=
  match path with
  | .column name => .field name predicate
  | .related relation column => .related relation none (.field column predicate)

/-- A test of the field with a dotted path. -/
def onField (path : String) (predicate : Predicate) : Condition :=
  onPath (.ofString path) predicate

/-- The entries of a conjunction; none for any other condition. -/
def andEntries : Condition → List Condition
  | .and entries => entries
  | _ => []

mutual

/-- The store's form of a condition. -/
def toJson : Condition → Json
  | .and entries => .entry "AND" (.array (entriesToJson entries))
  | .or entries => .entry "OR" (.array (entriesToJson entries))
  | .field name predicate => .entry name predicate.toJson
  | .related relation none body => .entry relation body.toJson
  | .related relation (some quantifier) body =>
    .entry relation (.entry quantifier.name body.toJson)
  | .custom value => value
  | .matchAll => .object []

/-- The store's form of each entry. -/
def entriesToJson : List Condition → List Json
  | [] => []
  | entry :: rest => entry.toJson :: entriesToJson rest

end

theorem entriesToJson_eq_map (entries : List Condition) :
    entriesToJson entries = entries.map toJson := by
  induction entries with
  | nil => rfl
  | cons entry rest ih => rw [entriesToJson, ih, List.map_cons]

end Condition

end ListQuery
