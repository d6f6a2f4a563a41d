import ListQuery.Condition

/-!
# The leaves of a condition

A condition as the list of its tests from left to right, each with the groups and relations around it.
The list forgets empty groups and keeps everything else; the dotted path of a leaf names the relations
around it and then its field.
-/

namespace ListQuery

/-- What a condition can be wrapped in. -/
inductive Enclosure where
  | and
  | or
  | related (relation : String) (quantifier : Option Quantifier)
deriving DecidableEq

/-- A condition that holds no other one. -/
inductive Leaf where
  | field (name : String) (predicate : Predicate)
  | custom (value : Json)
deriving DecidableEq

namespace Enclosure

/-- The part of a dotted path that an enclosure stands for: a relation with its dot, or nothing. -/
def scope : Enclosure → String
  | .and | .or => ""
  | .related relation _ => relation ++ "."

/-- The dotted path of a field inside some enclosures, outermost first. -/
def path (chain : List Enclosure) (name : String) : String :=
  chain.foldr (fun e rest => e.scope ++ rest) name

@[simp] theorem path_nil (name : String) : path [] name = name := rfl

@[simp] theorem path_cons (e : Enclosure) (chain : List Enclosure) (name : String) :
    path (e :: chain) name = e.scope ++ path chain name := rfl

theorem path_append (outer inner : List Enclosure) (name : String) :
    path (outer ++ inner) name = path outer (path inner name) := List.foldr_append

end Enclosure

/-- The relation of a field path, around its column. -/
def FieldPath.enclosures : FieldPath → List Enclosure
  | .column _ => []
  | .related relation _ => [.related relation none]

theorem FieldPath.path_enclosures (path : FieldPath) :
    Enclosure.path path.enclosures path.columnName = path.dotted := by
  cases path <;> rfl

namespace Condition

/-- A leaf with one more enclosure around it. -/
def enclose (e : Enclosure) (leaf : List Enclosure × Leaf) : List Enclosure × Leaf :=
  (e :: leaf.1, leaf.2)

mutual

/-- The leaves from left to right, each with its enclosures, outermost first. -/
def leaves : Condition → List (List Enclosure × Leaf)
  | .and entries => (leavesOf entries).map (enclose .and)
  | .or entries => (leavesOf entries).map (enclose .or)
  | .field name predicate => [([], .field name predicate)]
  | .related relation quantifier body => body.leaves.map (enclose (.related relation quantifier))
  | .custom value => [([], .custom value)]
  | .matchAll => []

/-- The leaves of conditions in order. -/
def leavesOf : List Condition → List (List Enclosure × Leaf)
  | [] => []
  | entry :: rest => entry.leaves ++ leavesOf rest

end

theorem leavesOf_eq_flatMap (entries : List Condition) :
    leavesOf entries = entries.flatMap leaves := by
  induction entries with
  | nil => rfl
  | cons entry rest ih => rw [leavesOf, ih, List.flatMap_cons]

/-- A test of a field is one leaf, which has the two parts of its path. -/
theorem leaves_onField (path : String) (p : Predicate) :
    (onField path p).leaves = [((FieldPath.ofString path).enclosures,
      .field (FieldPath.ofString path).columnName p)] := by
  rw [onField]
  cases FieldPath.ofString path <;> rfl

end Condition

end ListQuery
