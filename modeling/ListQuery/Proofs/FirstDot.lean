import ListQuery.FieldPath
import Mathlib.Data.List.TakeWhile

/-!
# The first dot of a key

What it means that a key is cut at its first dot, said without the function that cuts it: a key
without a dot has no relation and is its own column, and a key `relation.column` with no dot in
`relation` has both parts. Every key is cut in one way only, which is how `FieldPath.ofString`
cuts it (`firstDot_iff`).
-/

namespace ListQuery

/-- `FirstDot key relation column`: cut at its first dot, `key` has these two parts. -/
inductive FirstDot : String → Option String → String → Prop where
  /-- Without a dot there is no relation. -/
  | undotted {key : String} (h : '.' ∉ key.toList) : FirstDot key none key
  /-- The first dot ends the relation; the column keeps all others. -/
  | dotted {relation : String} (h : '.' ∉ relation.toList) (column : String) :
    FirstDot (relation ++ "." ++ column) (some relation) column

namespace FieldPath

/-- The relation of a path holds no dot, and a path without a relation holds none at all. -/
theorem ofString_cases (key : String) :
    (ofString key = .column key ∧ '.' ∉ key.toList) ∨
      ∃ relation column, ofString key = .related relation column ∧
        key = relation ++ "." ++ column ∧ '.' ∉ relation.toList := by
  have hdot := dotted_ofString key
  unfold ofString at hdot ⊢
  split
  · rename_i h
    refine Or.inl ⟨rfl, fun hmem => ?_⟩
    have := List.dropWhile_eq_nil_iff.1 h '.' hmem
    simp at this
  · rename_i c rest h
    rw [h] at hdot
    refine Or.inr ⟨_, _, rfl, hdot.symm, fun hmem => ?_⟩
    rw [String.toList_ofList] at hmem
    have := List.all_eq_true.1 (List.all_takeWhile (p := (· != '.')) (l := key.toList)) '.' hmem
    simp at this

end FieldPath

theorem firstDot_ofString (key : String) :
    FirstDot key (FieldPath.ofString key).relation? (FieldPath.ofString key).columnName := by
  rcases FieldPath.ofString_cases key with ⟨h, hdot⟩ | ⟨relation, column, h, rfl, hdot⟩
  · rw [h]
    exact .undotted hdot
  · rw [h]
    exact .dotted hdot column

/-- A key is cut at its first dot in one way, the way that `FieldPath.ofString` cuts it. -/
theorem firstDot_iff {key : String} {relation : Option String} {column : String} :
    FirstDot key relation column ↔
      (FieldPath.ofString key).relation? = relation ∧
        (FieldPath.ofString key).columnName = column := by
  constructor
  · intro h
    cases h with
    | undotted h =>
      rw [FieldPath.ofString_of_notMem h]
      exact ⟨rfl, rfl⟩
    | dotted h column =>
      rw [FieldPath.ofString_append h]
      exact ⟨rfl, rfl⟩
  · rintro ⟨rfl, rfl⟩
    exact firstDot_ofString key

end ListQuery
