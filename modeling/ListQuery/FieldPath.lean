/-!
# Field paths

A field path names a column of the listed entity (`status`) or a column of a related entity
(`author.name`). Only the first dot separates: in `a.b.c` the relation is `a` and the column `b.c`.
No part is checked, so a relation or a column can be empty. `dotted_ofString` says that splitting
loses nothing, `ofString_of_notMem` and `ofString_append` what it gives.
-/

namespace ListQuery

/-- A field path, split at its first dot. -/
inductive FieldPath where
  /-- A column of the listed entity. -/
  | column (name : String)
  /-- A column of a related entity. -/
  | related (relation column : String)
deriving DecidableEq

namespace FieldPath

/-- Split a path at its first dot. -/
def ofString (path : String) : FieldPath :=
  match path.toList.dropWhile (· != '.') with
  | [] => .column path
  | _ :: rest =>
    .related (String.ofList (path.toList.takeWhile (· != '.'))) (String.ofList rest)

/-- The relation that a path goes through. -/
def relation? : FieldPath → Option String
  | .column _ => none
  | .related relation _ => some relation

/-- The part behind the relation. -/
def columnName : FieldPath → String
  | .column name => name
  | .related _ name => name

/-- The path as text again. -/
def dotted : FieldPath → String
  | .column name => name
  | .related relation name => relation ++ "." ++ name

theorem dotted_ofString (path : String) : (ofString path).dotted = path := by
  unfold ofString
  split
  · rfl
  · rename_i c rest h
    have hc : c = '.' := by
      have := List.head_dropWhile_not (· != '.') (l := path.toList) (by simp [h])
      simp only [h, List.head_cons] at this
      simpa using this
    have := List.takeWhile_append_dropWhile (p := (· != '.')) (l := path.toList)
    rw [h, hc] at this
    simp only [dotted]
    apply String.ext
    simpa using this

theorem ofString_of_notMem {path : String} (h : '.' ∉ path.toList) :
    ofString path = .column path := by
  have hne : ∀ c ∈ path.toList, (c != '.') = true := by
    intro c hc
    simp only [bne_iff_ne, ne_eq]
    rintro rfl
    exact h hc
  have hd : path.toList.dropWhile (· != '.') = [] := by
    rw [← List.append_nil path.toList, List.dropWhile_append_of_pos hne, List.dropWhile_nil]
  rw [ofString, hd]

theorem ofString_append {relation : String} (h : '.' ∉ relation.toList) (name : String) :
    ofString (relation ++ "." ++ name) = .related relation name := by
  have hne : ∀ c ∈ relation.toList, (c != '.') = true := by
    intro c hc
    simp only [bne_iff_ne, ne_eq]
    rintro rfl
    exact h hc
  have hl : (relation ++ "." ++ name).toList = relation.toList ++ '.' :: name.toList := by simp
  have hd : (relation.toList ++ '.' :: name.toList).dropWhile (· != '.') = '.' :: name.toList := by
    rw [List.dropWhile_append_of_pos hne, List.dropWhile_cons_of_neg (by decide)]
  have ht : (relation.toList ++ '.' :: name.toList).takeWhile (· != '.') = relation.toList := by
    rw [List.takeWhile_append_of_pos hne, List.takeWhile_cons_of_neg (by decide), List.append_nil]
  rw [ofString, hl, hd, ht]
  simp

end FieldPath

end ListQuery
