import ListQuery.Proofs.FirstDot
import ListQuery.Validation

/-!
# Accepted requests

What a specification accepts, said without the report that its checks put together:

* `Specification.Permits`: a path is not forbidden and goes through no relation that is not allowed;
* `Specification.Accepts`: every key of a request is permitted, no range runs backwards in time, and
  the page and the rows are integers from 1 on, the rows up to the largest page.

A request is valid exactly if it is accepted (`isValid_validate_iff`); there is one lemma for each
of the checks that the report is made of.
-/

namespace ListQuery

/-! ### What may be asked -/

/-- The list of allowed relations has the relation, if there is one. -/
def Specification.AllowsRelation (s : Specification) (relation : String) : Prop :=
  ∀ allowed, s.allowedRelations = some allowed → relation ∈ allowed

/-- A path that may be used. -/
structure Specification.Permits (s : Specification) (path : String) : Prop where
  notForbidden : path ∉ s.forbiddenFields
  /-- The part in front of the first dot. -/
  relation : ∀ relation column, FirstDot path (some relation) column → s.AllowsRelation relation

/-- Two dates in the strict form, of which the first is the later one. -/
def Backwards (start stop : Json) : Prop :=
  ∃ first last, Specification.boundInstant? start = some first ∧
    Specification.boundInstant? stop = some last ∧ first.isAfter last = true

/-- An integer from 1 on. -/
def PageParam.Positive (p : PageParam) : Prop := ∃ n, p = .valid n ∧ 1 ≤ n.val

/-- A number of rows up to the largest page. -/
def Specification.AllowsRows (s : Specification) (p : PageParam) : Prop :=
  ∃ n, p = .valid n ∧ 1 ≤ n.val ∧ ∀ maximum, s.maxPageSize = some maximum → n.val ≤ maximum.val

/-- Everything that a request names a field by, whether it asks for a value or not. -/
def Request.keys (r : Request) : List String :=
  r.filters.keys ++ r.searches.keys ++ r.ranges.map RangeFilter.key ++ r.orderKey.toList

/-- A request that may be answered. -/
structure Specification.Accepts (s : Specification) (r : Request) : Prop where
  keys : ∀ key ∈ r.keys, s.Permits key
  ranges : ∀ range ∈ r.ranges, ¬ Backwards range.start range.stop
  page : ∀ p, r.page = some p → p.Positive
  rows : ∀ p, r.rows = some p → s.AllowsRows p

namespace Specification

variable {s : Specification}

/-! ### Check by check -/

theorem isValid_checkName_iff {path : String} :
    (s.checkName path).isValid = true ↔ path ∉ s.forbiddenFields := by
  by_cases h : path ∈ s.forbiddenFields
  · simp [checkName, h]
  · cases hl : s.allowedFields with
    | none => simp [checkName, h, hl]
    | some allowed =>
      by_cases ha : path ∈ allowed <;> simp [checkName, h, hl, ha, Report.isValid, Report.clean]

theorem isValid_checkRelation_iff {path : String} :
    (s.checkRelation path).isValid = true ↔
      ∀ relation column, FirstDot path (some relation) column → s.AllowsRelation relation := by
  simp only [firstDot_iff, and_imp, AllowsRelation]
  unfold checkRelation
  cases (FieldPath.ofString path).relation? with
  | none => simp
  | some relation =>
    cases s.allowedRelations with
    | none => simp
    | some allowed => by_cases h : relation ∈ allowed <;> simp [h]

theorem isValid_checkField_iff {path : String} :
    (s.checkField path).isValid = true ↔ s.Permits path := by
  rw [checkField, Report.isValid_append, Bool.and_eq_true, isValid_checkName_iff,
    isValid_checkRelation_iff]
  exact ⟨fun ⟨hn, hr⟩ => ⟨hn, hr⟩, fun h => ⟨h.notForbidden, h.relation⟩⟩

theorem isValid_checkBounds_iff {r : RangeFilter} :
    (checkBounds r).isValid = true ↔ ¬ Backwards r.start r.stop := by
  unfold checkBounds Backwards
  cases boundInstant? r.start with
  | none => simp
  | some a =>
    cases boundInstant? r.stop with
    | none => simp
    | some b => cases h : a.isAfter b <;> simp [h]

theorem isValid_checkPage_iff {p : PageParam} : (checkPage p).isValid = true ↔ p.Positive := by
  cases p with
  | invalid raw => simp [checkPage, PageParam.Positive]
  | valid n =>
    have hn : (PageParam.valid n).Positive ↔ ¬ n.val < 1 := by simp [PageParam.Positive]
    rw [hn, checkPage]
    by_cases h : n.val < 1 <;> simp [h]

theorem isValid_checkRows_iff {p : PageParam} :
    (s.checkRows p).isValid = true ↔ s.AllowsRows p := by
  cases p with
  | invalid raw => simp [checkRows, AllowsRows]
  | valid n =>
    have hn : s.AllowsRows (.valid n) ↔
        ¬ n.val < 1 ∧ ∀ maximum, s.maxPageSize = some maximum → ¬ maximum.val < n.val := by
      simp [AllowsRows]
    rw [hn, checkRows]
    by_cases h : n.val < 1
    · simp [h]
    · cases s.maxPageSize with
      | none => simp [h]
      | some maximum =>
        by_cases hm : maximum.val < n.val
        · simp [h, hm]
        · simp [h, hm, Int.not_lt.1 hm]

/-! ### The whole report -/

theorem isValid_concat_map_iff {α : Type} {check : α → Report} {parts : List α} :
    (Report.concat (parts.map check)).isValid = true ↔
      ∀ part ∈ parts, (check part).isValid = true := by
  rw [Report.isValid_concat_iff, List.forall_mem_map]

theorem isValid_checkRange_iff {r : RangeFilter} :
    (s.checkRange r).isValid = true ↔ s.Permits r.key ∧ ¬ Backwards r.start r.stop := by
  rw [checkRange, Report.isValid_append, Bool.and_eq_true, isValid_checkField_iff,
    isValid_checkBounds_iff]

theorem isValid_check_iff {r : Request} : (s.check r).isValid = true ↔ s.Accepts r := by
  simp only [check, Report.isValid_append, Bool.and_eq_true, isValid_concat_map_iff,
    isValid_checkField_iff, isValid_checkRange_iff, isValid_checkPage_iff, isValid_checkRows_iff,
    Option.mem_toList]
  constructor
  · rintro ⟨⟨⟨⟨⟨hf, hs⟩, hr⟩, ho⟩, hp⟩, hn⟩
    refine ⟨?_, fun range h => (hr range h).2, hp, hn⟩
    simp only [Request.keys, List.forall_mem_append, List.forall_mem_map, Option.mem_toList]
    exact ⟨⟨⟨hf, hs⟩, fun range h => (hr range h).1⟩, ho⟩
  · rintro ⟨hk, hr, hp, hn⟩
    simp only [Request.keys, List.forall_mem_append, List.forall_mem_map, Option.mem_toList] at hk
    exact ⟨⟨⟨⟨⟨hk.1.1.1, hk.1.1.2⟩, fun range h => ⟨hk.1.2 range h, hr range h⟩⟩, hk.2⟩, hp⟩, hn⟩

end Specification

/-- A request is valid exactly if its specification accepts it. -/
theorem Request.isValid_validate_iff {r : Request} {s : Specification} :
    (r.validate (some s)).isValid = true ↔ s.Accepts r :=
  Specification.isValid_check_iff

end ListQuery
