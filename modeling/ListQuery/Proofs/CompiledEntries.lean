import ListQuery.Condition.Leaves
import ListQuery.Query
import Mathlib.Data.List.Basic

/-!
# What a compiled request holds

Two views of the condition of a request.

* Its tests, from left to right, each under the dotted path of its field: `Condition.tests` reads
  them off the leaves of any condition, `Request.tests` off the sections of a request. They are the
  same list (`tests_ofRequest`), so that every path is one of the request's own keys, in full.
* Its entries: each stands for a single test or for alternatives of tests (`Request.Entry`, by
  `entry_of_mem`), and where the tests come from is part of the view.
-/

namespace ListQuery

/-! ### Tests of a condition -/

/-- The test that a leaf makes, under the dotted path of its field. -/
def Leaf.test? : List Enclosure × Leaf → Option (String × Predicate)
  | (chain, .field name p) => some (Enclosure.path chain name, p)
  | (_, .custom _) => none

namespace Condition

/-- The tests of fields from left to right, each under its dotted path. -/
def tests (c : Condition) : List (String × Predicate) := c.leaves.filterMap Leaf.test?

theorem mem_tests {c : Condition} {chain : List Enclosure} {name : String} {p : Predicate}
    (h : (chain, .field name p) ∈ c.leaves) : (Enclosure.path chain name, p) ∈ c.tests :=
  List.mem_filterMap.2 ⟨_, h, rfl⟩

/-- A group adds nothing to the paths of what it holds. -/
theorem test?_enclose {e : Enclosure} (h : e.scope = "") (leaf : List Enclosure × Leaf) :
    Leaf.test? (enclose e leaf) = Leaf.test? leaf := by
  rcases leaf with ⟨chain, ⟨name, p⟩ | value⟩
  · simp [Leaf.test?, enclose, h]
  · rfl

theorem filterMap_test?_group {e : Enclosure} (h : e.scope = "") (entries : List Condition) :
    ((leavesOf entries).map (enclose e)).filterMap Leaf.test? = entries.flatMap tests := by
  have hsame : Leaf.test? ∘ enclose e = Leaf.test? := funext (test?_enclose h)
  rw [List.filterMap_map, hsame, leavesOf_eq_flatMap, List.filterMap_flatMap]
  rfl

theorem tests_and (entries : List Condition) : (and entries).tests = entries.flatMap tests := by
  rw [tests, leaves, filterMap_test?_group rfl]

theorem tests_or (entries : List Condition) : (or entries).tests = entries.flatMap tests := by
  rw [tests, leaves, filterMap_test?_group rfl]

/-- The tree holds the key in two parts, and its path puts them together again. -/
theorem tests_onField (key : String) (p : Predicate) : (onField key p).tests = [(key, p)] := by
  have hkey := FieldPath.dotted_ofString key
  rw [← FieldPath.path_enclosures] at hkey
  have hleaf : Leaf.test? ((FieldPath.ofString key).enclosures,
      .field (FieldPath.ofString key).columnName p) = some (key, p) := by
    rw [Leaf.test?, hkey]
  rw [tests, leaves_onField, List.filterMap_cons_some hleaf, List.filterMap_nil]

theorem flatMap_tests_onField (tests : List (String × Predicate)) :
    (tests.map fun test => onField test.1 test.2).flatMap Condition.tests = tests := by
  simp only [List.flatMap_map, tests_onField, List.flatMap_singleton']

end Condition

/-! ### Tests of a request -/

namespace Request

/-- The tests of a filter: of an array, one for each item. -/
def filterTests (key : String) : Json → List (String × Predicate)
  | .array options => options.map fun option => (key, .equals option)
  | value => [(key, .equals value)]

/-- A filter asks for nothing but equality, and under no other key. -/
theorem exists_of_mem_filterTests {key : String} {value : Json} {test : String × Predicate}
    (h : test ∈ filterTests key value) : ∃ v, test = (key, .equals v) := by
  cases value with
  | array options =>
    obtain ⟨option, -, rfl⟩ := List.mem_map.1 h
    exact ⟨option, rfl⟩
  | null | bool | number | string | object => exact ⟨_, List.mem_singleton.1 h⟩

/-- A filter tests something unless it asks for one of no values. -/
theorem exists_mem_filterTests {key : String} {value : Json} (h : value ≠ .array []) :
    ∃ p, (key, p) ∈ filterTests key value := by
  cases value with
  | array options =>
    cases options with
    | nil => exact absurd rfl h
    | cons option rest => exact ⟨.equals option, .head _⟩
  | null | bool | number | string | object => exact ⟨_, .head _⟩

/-- The tests that a request asks for, section by section. -/
def tests (r : Request) : List (String × Predicate) :=
  (r.filters.present.flatMap fun member => filterTests member.1 member.2) ++
    r.searches.present.map (fun member => (member.1, .contains member.2)) ++
    r.ranges.map fun range => (range.key, .range range.start range.stop)

end Request

namespace Condition

theorem tests_ofFilter (member : String × Json) :
    (ofFilter member).tests = Request.filterTests member.1 member.2 := by
  rcases member with ⟨key, value⟩
  cases value with
  | array options =>
    rw [ofFilter, tests_or, Request.filterTests]
    simpa [Function.comp_def] using
      flatMap_tests_onField (options.map fun option => (key, .equals option))
  | null | bool | number | string | object => exact tests_onField key _

theorem tests_ofSearches (searches : Dict Json) :
    (ofSearches? searches).toList.flatMap tests =
      searches.present.map fun member => (member.1, .contains member.2) := by
  unfold ofSearches?
  generalize searches.present = members
  match members with
  | [] => rfl
  | [member] => simpa [ofSearch] using tests_onField member.1 (.contains member.2)
  | member :: second :: rest =>
    have := flatMap_tests_onField
      ((member :: second :: rest).map fun member => (member.1, .contains member.2))
    rw [List.map_map] at this
    exact (List.flatMap_singleton _ _).trans ((tests_or _).trans this)

theorem tests_ofRanges (ranges : List RangeFilter) :
    (ofRanges ranges).flatMap tests =
      ranges.map fun range => (range.key, .range range.start range.stop) := by
  have := flatMap_tests_onField
    (ranges.map fun range => (range.key, .range range.start range.stop))
  rwa [List.map_map] at this

/-- The tests of a compiled request are those that the request asks for. -/
theorem tests_ofRequest (r : Request) : (ofRequest r).tests = r.tests := by
  rw [ofRequest, tests_and, List.flatMap_append, List.flatMap_append, tests_ofSearches,
    tests_ofRanges, ofFilters, List.flatMap_map, Request.tests]
  simp only [tests_ofFilter]

end Condition

/-! ### Entries of a request -/

namespace Request

/-- A test that stands on its own: of a filter by one value, of a search, or of a range. -/
inductive SingleTest (r : Request) : String → Predicate → Prop where
  | filter {key : String} {value : Json} (h : (key, value) ∈ r.filters.entries)
    (single : ∀ options, value ≠ .array options) : SingleTest r key (.equals value)
  | search {key : String} {value : Json} (h : (key, value) ∈ r.searches.entries) :
    SingleTest r key (.contains value)
  | range {range : RangeFilter} (h : range ∈ r.ranges) :
    SingleTest r range.key (.range range.start range.stop)

/-- A test that stands among alternatives: of one item of a filter's array, or of a search. -/
inductive OptionTest (r : Request) : String → Predicate → Prop where
  | filter {key : String} {options : List Json} {option : Json}
    (h : (key, .array options) ∈ r.filters.entries) (ho : option ∈ options) :
    OptionTest r key (.equals option)
  | search {key : String} {value : Json} (h : (key, value) ∈ r.searches.entries) :
    OptionTest r key (.contains value)

/-- What stands in the conjunction of a request: a single test, or alternatives of tests. -/
inductive Entry (r : Request) : Condition → Prop where
  | test {key : String} {p : Predicate} (h : r.SingleTest key p) : Entry r (.onField key p)
  | options {tests : List (String × Predicate)} (h : ∀ test ∈ tests, r.OptionTest test.1 test.2) :
    Entry r (.or (tests.map fun test => .onField test.1 test.2))

variable {r : Request}

theorem entry_ofFilter {member : String × Json} (h : member ∈ r.filters.entries) :
    r.Entry (.ofFilter member) := by
  rcases member with ⟨key, value⟩
  cases value with
  | array options =>
    have hoptions : ∀ test ∈ options.map fun option => (key, Predicate.equals option),
        r.OptionTest test.1 test.2 := List.forall_mem_map.2 fun option ho => .filter h ho
    simpa [Condition.ofFilter, Function.comp_def] using Entry.options hoptions
  | null | bool | number | string | object => exact .test (.filter h (by simp))

theorem entry_ofSearches {c : Condition} (h : c ∈ (Condition.ofSearches? r.searches).toList) :
    r.Entry c := by
  have hmem : ∀ member ∈ r.searches.present, member ∈ r.searches.entries :=
    fun member h => (Dict.mem_present.1 h).1
  unfold Condition.ofSearches? at h
  generalize r.searches.present = members at h hmem
  match members with
  | [] => simp at h
  | [member] =>
    obtain rfl : c = .ofSearch member := by simpa using h
    exact .test (.search (hmem _ (.head _)))
  | member :: second :: rest =>
    obtain rfl : c = .or ((member :: second :: rest).map .ofSearch) := by simpa using h
    have hoptions : ∀ test ∈ (member :: second :: rest).map fun member =>
        (member.1, Predicate.contains member.2), r.OptionTest test.1 test.2 :=
      List.forall_mem_map.2 fun member h => .search (hmem _ h)
    have := Entry.options hoptions
    rwa [List.map_map] at this

theorem entry_of_mem {c : Condition} (h : c ∈ (Condition.ofRequest r).andEntries) : r.Entry c := by
  simp only [Condition.ofRequest, Condition.andEntries, List.mem_append] at h
  rcases h with (h | h) | h
  · obtain ⟨member, hmem, rfl⟩ := List.mem_map.1 h
    exact entry_ofFilter (Dict.mem_present.1 hmem).1
  · exact entry_ofSearches h
  · obtain ⟨range, hmem, rfl⟩ := List.mem_map.1 h
    exact .test (.range hmem)

end Request

end ListQuery
