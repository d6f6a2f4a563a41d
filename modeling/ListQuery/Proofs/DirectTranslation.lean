import ListQuery.Proofs.ResolvedLeaves
import Mathlib.Data.List.Basic

/-!
# Compiling and resolving in one pass

A request is compiled to a tree, its keys cut at their first dots, and the tree is then resolved,
each key put together again from the relation around a field. `Request.translate` goes from the
request to the resolved condition at once: it asks for the rule of each key as the request writes
it, dots included, and never cuts a key to look it up.

* `FieldRule` is what a mapping's four dictionaries say of one key, `Mapping.ruleFor` looks it up,
  and `FieldRule.translate` makes the test of a key: the renamed column, or else the part of the
  key behind its first dot; below the relation that the key is mapped to, or as a custom function
  writes it; and all that behind the relation that the key itself names.
* Groups are built of what is left: the items of an array, and several searches, become
  alternatives, and without any of them nothing.

`resolve_ofRequest` says that the two ways agree for every mapping and every request, and that the
rules of no other key matter.
-/

namespace ListQuery

/-- What a mapping says of one key. -/
structure FieldRule where
  relation : Option String
  column : Option String
  typeHandler : Option TypeHandler
  relationHandler : Option RelationHandler

/-- The rule of a key, looked up in all four dictionaries. -/
def Mapping.ruleFor (m : Mapping) (key : String) : FieldRule where
  relation := m.relations.get? key
  column := m.columns.get? key
  typeHandler := m.typeHandlers.get? key
  relationHandler := m.relationHandlers.get? key

namespace FieldRule

/-- The test of a column by a rule, or nothing if the rule drops the value. -/
def test (rule : FieldRule) (column : String) (p : Predicate) : Option Condition :=
  match rule.relation with
  | none => (p.process rule.typeHandler).map (.field column)
  | some relation =>
    match rule.relationHandler.bind RelationHandler.custom with
    | some custom => (custom p.rawValue column).map .custom
    | none =>
      (p.process rule.typeHandler).map fun q =>
        .related relation (rule.relationHandler.bind RelationHandler.quantifier) (.field column q)

/-- A condition behind the relation that a path goes through, if it goes through one. -/
def behind (path : FieldPath) (c : Condition) : Condition :=
  match path.relation? with
  | none => c
  | some relation => .related relation none c

/-- The test of a key by its rule. -/
def translate (rule : FieldRule) (key : String) (p : Predicate) : Option Condition :=
  let path := FieldPath.ofString key
  (rule.test (rule.column.getD path.columnName) p).map (behind path)

end FieldRule

/-- Alternatives, or nothing if there are none. -/
def Condition.anyOf : List Condition → Option Condition
  | [] => none
  | options => some (.or options)

namespace Request

section

open Condition

variable (rules : String → FieldRule)

/-- The condition of a filter: of an array, any of its items. -/
def translateFilter (key : String) : Json → Option Condition
  | .array options =>
    anyOf (options.filterMap fun option => (rules key).translate key (.equals option))
  | value => (rules key).translate key (.equals value)

/-- The condition of the searches: one stands alone, of several any. -/
def translateSearches : List (String × Json) → Option Condition
  | [(key, value)] => (rules key).translate key (.contains value)
  | members =>
    anyOf (members.filterMap fun (key, value) => (rules key).translate key (.contains value))

/-- The condition of a range. -/
def translateRange (range : RangeFilter) : Option Condition :=
  (rules range.key).translate range.key (.range range.start range.stop)

/-- The resolved condition of a request, straight from its entries. -/
def translate (r : Request) : Condition :=
  let filters := r.filters.present.filterMap fun (key, value) => translateFilter rules key value
  let searches := (translateSearches rules r.searches.present).toList
  let ranges := r.ranges.filterMap (translateRange rules)
  match filters ++ searches ++ ranges with
  | [] => .matchAll
  | entries => .and entries

end

/-- The keys that a request asks for: of filters and searches with a value, and of ranges. -/
def testedKeys (r : Request) : List String :=
  r.filters.present.map Prod.fst ++ r.searches.present.map Prod.fst ++ r.ranges.map RangeFilter.key

end Request

namespace Mapping

open Condition

variable (m : Mapping)

/-! ### One key -/

theorem resolveField_eq_test (path name : String) (p : Predicate) :
    m.resolveField path name p = (m.ruleFor path).test ((m.ruleFor path).column.getD name) p := by
  rw [resolveField, FieldRule.test]
  rfl

/-- Resolution looks a field up by the whole key, although the tree holds the key in two parts. -/
theorem resolveIn_onField (key : String) (p : Predicate) :
    m.resolveIn "" (onField key p) = (m.ruleFor key).translate key p := by
  have hkey := FieldPath.dotted_ofString key
  rw [onField, FieldRule.translate]
  cases hpath : FieldPath.ofString key with
  | column name =>
    obtain rfl : name = key := by rwa [hpath] at hkey
    rw [onPath, resolveIn, String.empty_append, resolveField_eq_test]
    exact Option.map_id.symm ▸ rfl
  | related relation column =>
    obtain rfl : relation ++ "." ++ column = key := by rwa [hpath] at hkey
    rw [onPath, resolveIn, resolveIn, String.empty_append, resolveField_eq_test]
    rfl

theorem group_or_eq_anyOf (options : List Condition) : group .or options = anyOf options := by
  cases options <;> rfl

theorem resolveIn_or (tests : List Condition) :
    m.resolveIn "" (.or tests) = anyOf (tests.filterMap (m.resolveIn "")) := by
  rw [resolveIn, resolveEntries_eq_filterMap, group_or_eq_anyOf]

theorem filterMap_singleton (c : Condition) :
    [c].filterMap (m.resolveIn "") = (m.resolveIn "" c).toList := by
  cases h : m.resolveIn "" c <;> simp [h]

/-! ### The three sections -/

variable {m} {rules : String → FieldRule}

theorem resolveIn_ofFilter {key : String} (h : rules key = m.ruleFor key) (value : Json) :
    m.resolveIn "" (ofFilter (key, value)) = Request.translateFilter rules key value := by
  cases value with
  | array options =>
    simp only [ofFilter, Request.translateFilter, resolveIn_or, List.filterMap_map, h]
    exact congrArg anyOf (List.filterMap_congr fun option _ => m.resolveIn_onField key _)
  | null | bool | number | string | object =>
    simp only [ofFilter, Request.translateFilter, resolveIn_onField, h]

theorem filterMap_ofFilters {filters : Dict Json}
    (h : ∀ key ∈ filters.present.map Prod.fst, rules key = m.ruleFor key) :
    (ofFilters filters).filterMap (m.resolveIn "") =
      filters.present.filterMap fun (key, value) => Request.translateFilter rules key value := by
  rw [ofFilters, List.filterMap_map]
  refine List.filterMap_congr fun member hmem => ?_
  exact resolveIn_ofFilter (h member.1 (List.mem_map_of_mem hmem)) member.2

theorem filterMap_ofSearches {searches : Dict Json}
    (h : ∀ key ∈ searches.present.map Prod.fst, rules key = m.ruleFor key) :
    (ofSearches? searches).toList.filterMap (m.resolveIn "") =
      (Request.translateSearches rules searches.present).toList := by
  have single : ∀ member ∈ searches.present, m.resolveIn "" (ofSearch member) =
      (rules member.1).translate member.1 (.contains member.2) := by
    intro member hmem
    rw [ofSearch, resolveIn_onField, h member.1 (List.mem_map_of_mem hmem)]
  unfold ofSearches?
  generalize searches.present = members at single
  match members with
  | [] => rfl
  | [member] => exact (m.filterMap_singleton _).trans (congrArg _ (single member (.head _)))
  | member :: second :: rest =>
    have all : ((member :: second :: rest).map ofSearch).filterMap (m.resolveIn "") =
        (member :: second :: rest).filterMap fun (key, value) =>
          (rules key).translate key (.contains value) := by
      rw [List.filterMap_map]
      exact List.filterMap_congr single
    exact (m.filterMap_singleton _).trans
      (congrArg Option.toList ((m.resolveIn_or _).trans (congrArg anyOf all)))

theorem filterMap_ofRanges {ranges : List RangeFilter}
    (h : ∀ key ∈ ranges.map RangeFilter.key, rules key = m.ruleFor key) :
    (ofRanges ranges).filterMap (m.resolveIn "") =
      ranges.filterMap (Request.translateRange rules) := by
  rw [ofRanges, List.filterMap_map]
  refine List.filterMap_congr fun range hmem => ?_
  rw [Function.comp_apply, ofRange, resolveIn_onField, Request.translateRange,
    h range.key (List.mem_map_of_mem hmem)]

/-! ### The request -/

theorem resolve_and (entries : List Condition) :
    m.resolve (.and entries) =
      match entries.filterMap (m.resolveIn "") with
      | [] => .matchAll
      | kept => .and kept := by
  rw [resolve, resolveIn, resolveEntries_eq_filterMap]
  cases entries.filterMap (m.resolveIn "") <;> rfl

theorem resolve_ofRequest_eq {r : Request} (h : ∀ key ∈ r.testedKeys, rules key = m.ruleFor key) :
    m.resolve (.ofRequest r) = r.translate rules := by
  simp only [Request.testedKeys, List.forall_mem_append] at h
  obtain ⟨⟨hf, hs⟩, hr⟩ := h
  rw [Condition.ofRequest, resolve_and, List.filterMap_append, List.filterMap_append,
    filterMap_ofFilters hf, filterMap_ofSearches hs, filterMap_ofRanges hr]
  rfl

/-- **One pass is enough**: to compile a request and to resolve its condition is to translate each
of its entries by the rule of the entry's own key, and by that of no other key. -/
theorem resolve_ofRequest (m : Mapping) (r : Request) :
    m.resolve (.ofRequest r) = r.translate m.ruleFor ∧
      ∀ rules : String → FieldRule, (∀ key ∈ r.testedKeys, rules key = m.ruleFor key) →
        m.resolve (.ofRequest r) = r.translate rules :=
  ⟨resolve_ofRequest_eq fun _ _ => rfl, fun _ h => resolve_ofRequest_eq h⟩

/-- A column for the field `name` is none for the key `owner.name`. -/
theorem resolve_scoped_key_without_rename :
    let m := Mapping.empty.moveTo "owner.name" "profile"
    let r := Request.empty.apply (.filter "owner.name" (.string "Ada"))
    m.resolve (.ofRequest r) = r.translate (m.rename "name" "label").ruleFor := by
  intro m r
  refine (resolve_ofRequest m r).2 _ fun key hkey => ?_
  obtain rfl := List.mem_singleton.1 hkey
  rfl

end Mapping

end ListQuery
