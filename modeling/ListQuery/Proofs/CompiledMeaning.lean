import ListQuery.Condition.Truth
import ListQuery.Proofs.FirstDot
import ListQuery.Query

/-!
# What a compiled request means

A request is read twice. `Condition.holds` reads the condition it compiles to, over a valuation of
the single tests; `Request.Admits` reads the request itself, over the same valuation, entry by
entry:

* every filter whose value is not `null` passes, an array by one of its items (so that an empty
  array never passes, and an item `null` is tested like any other);
* unless all search values are `null`, one that is not passes;
* every range passes.

A key is tested at the relation and the column that `FirstDot` cuts it into. The two readings agree
for every request and every valuation (`holds_ofRequest_iff`).
-/

namespace ListQuery

namespace Valuation

/-- The test of a key's column, behind the key's relation if it has one, holds. -/
def Passes (v : Valuation) (key : String) (p : Predicate) : Prop :=
  ∃ relation column, FirstDot key relation column ∧ v relation column p = true

/-- A filter passes if its value is met, or, of an array, one of the items is. -/
def PassesFilter (v : Valuation) (key : String) : Json → Prop
  | .array options => ∃ option ∈ options, v.Passes key (.equals option)
  | value => v.Passes key (.equals value)

end Valuation

/-- What a request asks of a row, read off its three sections. -/
structure Request.Admits (r : Request) (v : Valuation) : Prop where
  filters : ∀ key value, (key, value) ∈ r.filters.entries → value ≠ .null → v.PassesFilter key value
  searches : (∀ key value, (key, value) ∈ r.searches.entries → value = .null) ∨
    ∃ key value, (key, value) ∈ r.searches.entries ∧ value ≠ .null ∧ v.Passes key (.contains value)
  ranges : ∀ range ∈ r.ranges, v.Passes range.key (.range range.start range.stop)

namespace Condition

variable (v : Valuation)

/-! ### Single conditions -/

theorem holds_and_iff {entries : List Condition} :
    (and entries).holds v = true ↔ ∀ c ∈ entries, c.holds v = true := by
  simp [holds, holdsBehind, allHold_eq_all]

theorem holds_or_iff {entries : List Condition} :
    (or entries).holds v = true ↔ ∃ c ∈ entries, c.holds v = true := by
  simp [holds, holdsBehind, anyHolds_eq_any]

theorem holds_onField_iff {key : String} {p : Predicate} :
    (onField key p).holds v = true ↔ v.Passes key p := by
  rw [onField, holds_onPath]
  constructor
  · exact fun h => ⟨_, _, firstDot_ofString key, h⟩
  · rintro ⟨relation, column, hcut, h⟩
    obtain ⟨rfl, rfl⟩ := firstDot_iff.1 hcut
    exact h

/-! ### The three sections -/

theorem holds_ofFilter_iff {key : String} {value : Json} :
    (ofFilter (key, value)).holds v = true ↔ v.PassesFilter key value := by
  cases value with
  | array options => simp [ofFilter, Valuation.PassesFilter, holds_or_iff, holds_onField_iff]
  | null | bool | number | string | object =>
    simp only [ofFilter, Valuation.PassesFilter, holds_onField_iff]

theorem holds_ofFilters_iff {filters : Dict Json} :
    (∀ c ∈ ofFilters filters, c.holds v = true) ↔
      ∀ key value, (key, value) ∈ filters.entries → value ≠ .null → v.PassesFilter key value := by
  simp only [ofFilters, List.forall_mem_map, Prod.forall, Dict.mem_present, holds_ofFilter_iff,
    and_imp]

/-- One search stands alone and several are alternatives, which comes to the same. -/
theorem holds_ofSearches_iff {searches : Dict Json} :
    (∀ c ∈ (ofSearches? searches).toList, c.holds v = true) ↔
      searches.present = [] ∨ ∃ member ∈ searches.present, (ofSearch member).holds v = true := by
  unfold ofSearches?
  generalize searches.present = members
  match members with
  | [] => simp
  | [member] => simp
  | member :: second :: rest => simp [holds_or_iff, -Prod.exists]

theorem holds_ofSearches_iff_passes {searches : Dict Json} :
    (∀ c ∈ (ofSearches? searches).toList, c.holds v = true) ↔
      (∀ key value, (key, value) ∈ searches.entries → value = .null) ∨
        ∃ key value, (key, value) ∈ searches.entries ∧ value ≠ .null ∧
          v.Passes key (.contains value) := by
  rw [holds_ofSearches_iff, Dict.present_eq_nil_iff]
  simp only [ofSearch, holds_onField_iff, Dict.mem_present, Prod.exists, and_assoc]

theorem holds_ofRanges_iff {ranges : List RangeFilter} :
    (∀ c ∈ ofRanges ranges, c.holds v = true) ↔
      ∀ range ∈ ranges, v.Passes range.key (.range range.start range.stop) := by
  simp only [ofRanges, List.forall_mem_map, ofRange, holds_onField_iff]

/-! ### The request -/

/-- **Meaning of compilation**: the condition of a request holds exactly where the request
admits. -/
theorem holds_ofRequest_iff (r : Request) : (ofRequest r).holds v = true ↔ r.Admits v := by
  rw [ofRequest, holds_and_iff, List.forall_mem_append, List.forall_mem_append,
    holds_ofFilters_iff, holds_ofSearches_iff_passes, holds_ofRanges_iff]
  exact ⟨fun ⟨⟨hf, hs⟩, hr⟩ => ⟨hf, hs, hr⟩, fun h => ⟨⟨h.filters, h.searches⟩, h.ranges⟩⟩

end Condition

end ListQuery
