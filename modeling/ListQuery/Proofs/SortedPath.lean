import ListQuery.Proofs.FirstDot
import ListQuery.Proofs.KeptMeaning

/-!
# Sorting and searching by one key

A key is resolved twice: in the condition, where it has been cut at its first dot and its relation
stands around the field, and in the sort order, where it is whole. Both look the key up under its
dotted path, and what they reach should have one path.

With a mapping that changes names only (`Mapping.NamesOnly`), both put their path together from the
relation that the key is moved below (`Mapping.detour`) and the column that it is renamed to. The
condition has the relation of the key in front of them. The sort order has it only as the beginning
of the key, and so behind the new relation, or not at all if the key is renamed. The paths agree for
every key without a dot; they agree for a key with one exactly if the mapping spares it
(`sorted_path_eq_iff`).
-/

namespace ListQuery

/-- The dotted path of the field that a list is sorted by, if it is sorted by one. -/
def SortOrder.path? : SortOrder → Option String
  | .field name _ => some name
  | .related relation name _ => some (relation ++ "." ++ name)
  | .unsorted | .custom _ => none

theorem append_dot_append_ne (relation name : String) : relation ++ "." ++ name ≠ name := by
  intro h
  have hlength := congrArg String.length h
  simp only [String.length_append] at hlength
  have hdot : ".".length = 1 := rfl
  omega

namespace Mapping

/-- No value is treated and no function called, and a list is sorted by the column of its key. -/
structure NamesOnly (m : Mapping) : Prop where
  types : m.typeHandlers.entries = []
  relations : ∀ key h, (key, h) ∈ m.relationHandlers.entries →
    h.custom = none ∧ h.sortColumn = none

namespace NamesOnly

variable {m : Mapping}

theorem keepsValues (hm : m.NamesOnly) : m.KeepsValues where
  types := by simp [hm.types]
  relations key h hmem := (hm.relations key h hmem).1

theorem sortColumn_eq_none (hm : m.NamesOnly) (key : String) :
    (m.relationHandlers.get? key).bind RelationHandler.sortColumn = none := by
  cases hh : m.relationHandlers.get? key with
  | none => rfl
  | some h => exact (hm.relations key h (Entries.mem_of_get? hh)).2

/-! ### What a key resolves to -/

/-- In a condition the relation of the key comes first, then the relation that the key is moved
below, then the column. -/
theorem leaves_resolve_onField (hm : m.NamesOnly) (key : String) (p : Predicate) :
    ∃ q, (m.resolve (.onField key p)).leaves =
      [((FieldPath.ofString key).enclosures ++ m.detour key,
        .field (m.columnFor key (FieldPath.ofString key).columnName) q)] := by
  have hleaf := hm.keepsValues.resolveLeaf_field (FieldPath.ofString key).enclosures
    (FieldPath.ofString key).columnName p
  rw [FieldPath.path_enclosures, FieldPath.dotted_ofString] at hleaf
  obtain ⟨q, hq⟩ := hleaf
  refine ⟨q, ?_⟩
  rw [m.leaves_resolve_eq, Condition.leaves_onField, List.filterMap_cons_some hq,
    List.filterMap_nil]

/-- In a sort order the relation that the key is moved below comes first, then the column. -/
theorem path?_resolveOrder_field (hm : m.NamesOnly) (key : String) (direction : Direction) :
    (m.resolveOrder (.field key direction)).path? =
      some (Enclosure.path (m.detour key) (m.columnFor key key)) := by
  rw [resolveOrder, detour]
  cases m.relations.get? key with
  | none => rfl
  | some relation =>
    simp only [hm.keepsValues.custom_eq_none, hm.sortColumn_eq_none, Option.getD_none]
    rfl

end NamesOnly

/-! ### Comparing the two -/

/-- The mapping leaves a key below a relation alone: it is not renamed, and if it is moved, then to
where it cannot be told which of the two relations comes first. -/
structure Spares (m : Mapping) (key relation : String) : Prop where
  column : m.columns.get? key = none
  target : ∀ target, m.relations.get? key = some target →
    relation ++ "." ++ target = target ++ "." ++ relation

/-- The relation of a key in front of everything, or as a part of the column behind it. -/
theorem path_eq_path_iff (m : Mapping) (key relation column : String) :
    relation ++ "." ++ Enclosure.path (m.detour key) (m.columnFor key column) =
        Enclosure.path (m.detour key) (m.columnFor key (relation ++ "." ++ column)) ↔
      m.Spares key relation := by
  cases hc : m.columns.get? key with
  | some name =>
    -- A renamed key is one column on both sides, and only on one of them behind its relation.
    simp only [columnFor, hc, Option.getD_some]
    refine ⟨fun h => absurd h (append_dot_append_ne _ _), fun h => ?_⟩
    exact absurd h.column (by simp [hc])
  | none =>
    simp only [columnFor, hc, Option.getD_none]
    cases hr : m.relations.get? key with
    | none =>
      have hd : m.detour key = [] := by rw [detour, hr]; rfl
      simp only [hd, Enclosure.path_nil, true_iff]
      exact ⟨hc, by simp [hr]⟩
    | some target =>
      have hd (name : String) : Enclosure.path (m.detour key) name = target ++ "." ++ name := by
        rw [detour, hr]; rfl
      have hassoc : relation ++ "." ++ (target ++ "." ++ column) =
            target ++ "." ++ (relation ++ "." ++ column) ↔
          relation ++ "." ++ target = target ++ "." ++ relation := by
        simp only [← String.append_assoc, String.append_left_inj]
      rw [hd, hd, hassoc]
      exact ⟨fun h => ⟨hc, by simpa [hr] using h⟩, fun h => h.target target hr⟩

/-- **Sorting and searching by one key**: a search by a key tests one field, a sort by the key names
one, and the two have the same path exactly if the key has no relation or the mapping leaves it
alone. -/
theorem sorted_path_eq_iff {m : Mapping} (hm : m.NamesOnly) (key : String) (v : Json)
    (direction : Direction) :
    ∃ chain column q path,
      (m.resolve (.onField key (.contains v))).leaves = [(chain, .field column q)] ∧
      (m.resolveOrder (.field key direction)).path? = some path ∧
      (Enclosure.path chain column = path ↔
        ∀ relation rest, FirstDot key (some relation) rest → m.Spares key relation) := by
  obtain ⟨q, hleaves⟩ := hm.leaves_resolve_onField key (.contains v)
  refine ⟨_, _, q, _, hleaves, hm.path?_resolveOrder_field key direction, ?_⟩
  rw [Enclosure.path_append]
  simp only [firstDot_iff]
  rcases FieldPath.ofString_cases key with ⟨h, -⟩ | ⟨relation, column, h, hkey, -⟩
  · simp [h, FieldPath.enclosures, FieldPath.columnName, FieldPath.relation?]
  · have hpath := m.path_eq_path_iff key relation column
    rw [← hkey] at hpath
    rw [h]
    simpa [FieldPath.enclosures, FieldPath.columnName, FieldPath.relation?, Enclosure.scope]
      using hpath

/-- A key without a dot, moved and renamed. -/
theorem sorted_path_of_created :
    let m := ((Mapping.empty.rename "created" "createdAt").moveTo "created" "log")
      |>.withRelationHandler "created" (.ofCardinality .many)
    m.NamesOnly ∧ ∃ chain column q,
      (m.resolve (.onField "created" (.contains (.string "2024")))).leaves =
        [(chain, .field column q)] ∧
      (m.resolveOrder (.field "created" .desc)).path? = some (Enclosure.path chain column) ∧
      Enclosure.path chain column = "log.createdAt" := by
  intro m
  have hm : m.NamesOnly :=
    { types := rfl
      relations := by simp [m, withRelationHandler, moveTo, rename, Mapping.empty, Dict.insert,
        Dict.empty, Entries.insert, RelationHandler.ofCardinality] }
  have hdot : ∀ relation rest, FirstDot "created" (some relation) rest →
      m.Spares "created" relation := by
    intro relation rest h
    rw [firstDot_iff, FieldPath.ofString_of_notMem (by decide +kernel)] at h
    simp [FieldPath.relation?] at h
  obtain ⟨chain, column, q, path, hleaves, horder, hiff⟩ :=
    sorted_path_eq_iff hm "created" (.string "2024") .desc
  have hpath : path = "log.createdAt" := by
    have hcomputed : (m.resolveOrder (.field "created" .desc)).path? = some "log.createdAt" := by
      decide +kernel
    exact Option.some.inj (horder.symm.trans hcomputed)
  rw [← hiff.2 hdot] at horder hpath
  exact ⟨hm, chain, column, q, hleaves, horder, hpath⟩

/-- A key below a relation: renamed, it is sorted by outside of its relation, and moved, with the
two relations the wrong way round. -/
theorem renamed_author_sorted_elsewhere :
    let renamed := Mapping.empty.rename "author.name" "fullName"
    let moved := Mapping.empty.moveTo "author.name" "person"
    (renamed.NamesOnly ∧ moved.NamesOnly) ∧ ∀ v direction,
      (∃ chain q, (renamed.resolve (.onField "author.name" (.contains v))).leaves =
          [(chain, .field "fullName" q)] ∧ Enclosure.path chain "fullName" = "author.fullName" ∧
        (renamed.resolveOrder (.field "author.name" direction)).path? = some "fullName") ∧
      ∃ chain q, (moved.resolve (.onField "author.name" (.contains v))).leaves =
          [(chain, .field "name" q)] ∧ Enclosure.path chain "name" = "author.person.name" ∧
        (moved.resolveOrder (.field "author.name" direction)).path? = some "person.author.name" := by
  intro renamed moved
  have hempty : Mapping.empty.NamesOnly := ⟨rfl, by simp [Mapping.empty, Dict.empty]⟩
  have hrenamed : renamed.NamesOnly := ⟨hempty.types, hempty.relations⟩
  have hmoved : moved.NamesOnly := ⟨hempty.types, hempty.relations⟩
  refine ⟨⟨hrenamed, hmoved⟩, fun v direction => ⟨?_, ?_⟩⟩
  · obtain ⟨q, hq⟩ := hrenamed.leaves_resolve_onField "author.name" (.contains v)
    exact ⟨_, q, hq, by decide +kernel, by rfl⟩
  · obtain ⟨q, hq⟩ := hmoved.leaves_resolve_onField "author.name" (.contains v)
    exact ⟨_, q, hq, by decide +kernel, by rfl⟩

end Mapping

end ListQuery
