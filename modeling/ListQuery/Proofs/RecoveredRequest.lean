import ListQuery.Proofs.CompiledEntries
import Mathlib.Data.List.Basic

/-!
# The request behind a compiled condition

A condition is a flat list of entries: filters, a condition of the searches if there are any, ranges.
Nothing in it marks where a section ends, both an array filter and several searches are written as a
disjunction, and keys are cut at their first dot. The predicates tell the sections apart: only filters
ask for equality, only searches for a substring, only ranges for bounds. So the sections can be read
back (`filterMap_filter?_ofRequest`, `filterMap_search?_ofRequest`, `filterMap_range?_ofRequest`).

What is not read back is what compilation leaves out, which are the `null` values, and an array filter
without values, which has no test that could name its key. Requests without either compile to
different conditions unless they ask for the same (`ofRequest_eq_iff`).
-/

namespace ListQuery

/-! ### Reading the sections back -/

/-- The value that a predicate asks to be equal to. -/
def Predicate.equals? : Predicate → Option Json
  | .equals value => some value
  | _ => none

namespace Condition

/-- A group of alternatives. -/
def isOr : Condition → Bool
  | .or _ => true
  | _ => false

/-- The filter that the tests of an entry stand for. Alternatives are the items of an array. -/
def filterOfTests? (alternatives : Bool) : List (String × Predicate) → Option (String × Json)
  | (key, .equals value) :: rest =>
    if alternatives then
      some (key, .array (value :: rest.filterMap fun test => test.2.equals?))
    else some (key, value)
  | _ => none

/-- The filter that an entry was compiled from, if it was. -/
def filter? (entry : Condition) : Option (String × Json) := filterOfTests? entry.isOr entry.tests

/-- The search that a test was compiled from, if it was. -/
def search? : String × Predicate → Option (String × Json)
  | (key, .contains value) => some (key, value)
  | _ => none

/-- The range that a test was compiled from, if it was. -/
def range? : String × Predicate → Option RangeFilter
  | (key, .range start stop) => some ⟨key, start, stop⟩
  | _ => none

theorem filter?_onField (key : String) (p : Predicate) :
    (onField key p).filter? = p.equals?.map fun value => (key, value) := by
  have hsingle : (onField key p).isOr = false := by
    rw [onField]
    cases FieldPath.ofString key <;> rfl
  rw [filter?, tests_onField, hsingle]
  cases p <;> rfl

theorem filter?_or (tests : List (String × Predicate)) :
    (or (tests.map fun test => onField test.1 test.2)).filter? = filterOfTests? true tests := by
  rw [filter?, tests_or, flatMap_tests_onField, isOr]

theorem filter?_ofFilter {member : String × Json} (h : member.2 ≠ .array []) :
    (ofFilter member).filter? = some member := by
  rcases member with ⟨key, value⟩
  cases value with
  | array options =>
    have hoptions := filter?_or (options.map fun option => (key, .equals option))
    rw [List.map_map] at hoptions
    refine hoptions.trans ?_
    cases options with
    | nil => exact absurd rfl h
    | cons first rest =>
      simp [filterOfTests?, List.filterMap_map, Predicate.equals?]
  | null | bool | number | string | object => exact filter?_onField key _

theorem filter?_ofSearches {searches : Dict Json} {entry : Condition}
    (h : entry ∈ (ofSearches? searches).toList) : entry.filter? = none := by
  unfold ofSearches? at h
  generalize searches.present = members at h
  match members with
  | [] => simp at h
  | [member] =>
    obtain rfl : entry = .ofSearch member := by simpa using h
    exact filter?_onField _ _
  | member :: second :: rest =>
    obtain rfl : entry = .or ((member :: second :: rest).map .ofSearch) := by simpa using h
    have hsearches := filter?_or
      ((member :: second :: rest).map fun member => (member.1, .contains member.2))
    rw [List.map_map] at hsearches
    exact hsearches

/-- The filters are the entries that ask for equality. -/
theorem filterMap_filter?_ofRequest {r : Request}
    (h : ∀ key, (key, .array []) ∉ r.filters.entries) :
    (ofRequest r).andEntries.filterMap filter? = r.filters.present := by
  have hfilters : (ofFilters r.filters).filterMap filter? = r.filters.present := by
    rw [ofFilters, List.filterMap_map]
    refine (List.filterMap_congr fun member hmember => ?_).trans List.filterMap_some
    refine filter?_ofFilter fun he => h member.1 ?_
    rw [← he]
    exact (Dict.mem_present.1 hmember).1
  have hsearches : (ofSearches? r.searches).toList.filterMap filter? = [] :=
    List.filterMap_eq_nil_iff.2 fun _ => filter?_ofSearches
  have hranges : (ofRanges r.ranges).filterMap filter? = [] := by
    rw [ofRanges, List.filterMap_map]
    exact List.filterMap_eq_nil_iff.2 fun range _ => filter?_onField _ _
  rw [ofRequest, andEntries, List.filterMap_append, List.filterMap_append, hfilters, hsearches,
    hranges, List.append_nil, List.append_nil]

/-- A filter tests for equality and for nothing else. -/
theorem filterMap_filterTests {α : Type} (pick : String × Predicate → Option α)
    (h : ∀ key value, pick (key, .equals value) = none) (key : String) (value : Json) :
    (Request.filterTests key value).filterMap pick = [] := by
  refine List.filterMap_eq_nil_iff.2 fun test htest => ?_
  obtain ⟨v, rfl⟩ := Request.exists_of_mem_filterTests htest
  exact h key v

/-- The searches are the tests for a substring. -/
theorem filterMap_search?_ofRequest (r : Request) :
    (ofRequest r).tests.filterMap search? = r.searches.present := by
  have hfilters := filterMap_filterTests search? fun _ _ => rfl
  rw [tests_ofRequest, Request.tests, List.filterMap_append, List.filterMap_append]
  simp [List.filterMap_flatMap, hfilters, List.filterMap_map, Function.comp_def, search?]

/-- The ranges are the tests for bounds. -/
theorem filterMap_range?_ofRequest (r : Request) :
    (ofRequest r).tests.filterMap range? = r.ranges := by
  have hfilters := filterMap_filterTests range? fun _ _ => rfl
  rw [tests_ofRequest, Request.tests, List.filterMap_append, List.filterMap_append]
  simp [List.filterMap_flatMap, hfilters, List.filterMap_map, Function.comp_def, range?]

end Condition

/-! ### Requests with different conditions -/

/-- Every filter and every search asks for something. -/
structure Request.Definite (r : Request) : Prop where
  filters : ∀ member ∈ r.filters.entries, member.2 ≠ .null ∧ member.2 ≠ .array []
  searches : ∀ member ∈ r.searches.entries, member.2 ≠ .null

instance (r : Request) : Decidable r.Definite :=
  decidable_of_iff
    ((∀ member ∈ r.filters.entries, member.2 ≠ .null ∧ member.2 ≠ .array []) ∧
      ∀ member ∈ r.searches.entries, member.2 ≠ .null)
    ⟨fun h => ⟨h.1, h.2⟩, fun h => ⟨h.filters, h.searches⟩⟩

/-- **Compilation loses nothing** of such requests: their conditions are equal exactly if they have
the same filters, the same searches and the same ranges, keys, order and values included. -/
theorem Condition.ofRequest_eq_iff {r₁ r₂ : Request} (h₁ : r₁.Definite) (h₂ : r₂.Definite) :
    ofRequest r₁ = ofRequest r₂ ↔
      r₁.filters = r₂.filters ∧ r₁.searches = r₂.searches ∧ r₁.ranges = r₂.ranges := by
  constructor
  · intro h
    have hfilters {r : Request} (hr : r.Definite) :
        (ofRequest r).andEntries.filterMap filter? = r.filters.entries := by
      rw [filterMap_filter?_ofRequest fun _ hmem => (hr.filters _ hmem).2 rfl,
        Dict.present_eq_entries fun _ _ hmem => (hr.filters _ hmem).1]
    have hsearches {r : Request} (hr : r.Definite) :
        (ofRequest r).tests.filterMap search? = r.searches.entries := by
      rw [filterMap_search?_ofRequest,
        Dict.present_eq_entries fun _ _ hmem => hr.searches _ hmem]
    refine ⟨Dict.ext ?_, Dict.ext ?_, ?_⟩
    · rw [← hfilters h₁, h, hfilters h₂]
    · rw [← hsearches h₁, h, hsearches h₂]
    · rw [← filterMap_range?_ofRequest r₁, h, filterMap_range?_ofRequest]
  · rintro ⟨hfilters, hsearches, hranges⟩
    rw [ofRequest, ofRequest, hfilters, hsearches, hranges]

/-- A filter by one of a single value is not the filter by this value. -/
theorem Condition.ofRequest_ne_of_single_option :
    let options := Request.ofCalls
      [.filter "author.name" (.array [.string "Ada"]), .search "title" (.string "x")]
    let value := Request.ofCalls
      [.filter "author.name" (.string "Ada"), .search "title" (.string "x")]
    options.Definite ∧ value.Definite ∧ ofRequest options ≠ ofRequest value := by
  intro options value
  have hoptions : options.Definite := by decide
  have hvalue : value.Definite := by decide
  refine ⟨hoptions, hvalue, fun h => ?_⟩
  exact absurd ((ofRequest_eq_iff hoptions hvalue).1 h).1 (by decide)

end ListQuery
