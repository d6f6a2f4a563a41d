import ListQuery.Proofs.Acceptance

/-!
# Tighter specifications

A specification is tighter than another if it forbids at least the same fields, and allows no other
relations and no larger pages, where a list or a bound that is not given allows everything
(`Specification.Tightens`). The fields that a specification lists without forbidding others have no
part in this.

* What a tighter specification accepts, the wider one accepts too, part by part
  (`Tightens.accepts`), and without a specification every request is valid.
* The list of allowed fields can be exchanged for any other, or be taken away, and every request
  keeps its errors, each at its place (`errors_check_listing`).
-/

namespace ListQuery

namespace Specification

variable {s t : Specification}

/-- What `t` refuses, `s` refuses too; a list or a bound that is absent refuses nothing. -/
structure Tightens (s t : Specification) : Prop where
  fields : ∀ path ∈ t.forbiddenFields, path ∈ s.forbiddenFields
  relations : ∀ wide, t.allowedRelations = some wide →
    ∃ narrow, s.allowedRelations = some narrow ∧ ∀ relation ∈ narrow, relation ∈ wide
  rows : ∀ upper, t.maxPageSize = some upper →
    ∃ lower, s.maxPageSize = some lower ∧ lower.val ≤ upper.val

/-! ### What is accepted -/

theorem Tightens.allowsRelation (h : s.Tightens t) {relation : String}
    (hs : s.AllowsRelation relation) : t.AllowsRelation relation := by
  intro wide hwide
  obtain ⟨narrow, hnarrow, hsub⟩ := h.relations wide hwide
  exact hsub relation (hs narrow hnarrow)

theorem Tightens.permits (h : s.Tightens t) {path : String} (hs : s.Permits path) :
    t.Permits path where
  notForbidden hpath := hs.notForbidden (h.fields path hpath)
  relation relation column hcut := h.allowsRelation (hs.relation relation column hcut)

theorem Tightens.allowsRows (h : s.Tightens t) {p : PageParam} (hs : s.AllowsRows p) :
    t.AllowsRows p := by
  obtain ⟨n, rfl, hpos, hle⟩ := hs
  refine ⟨n, rfl, hpos, fun upper hupper => ?_⟩
  obtain ⟨lower, hlower, hbound⟩ := h.rows upper hupper
  exact Int.le_trans (hle lower hlower) hbound

/-- The ranges and the page are checked against no specification at all. -/
theorem Tightens.accepts (h : s.Tightens t) {r : Request} (hs : s.Accepts r) : t.Accepts r where
  keys key hkey := h.permits (hs.keys key hkey)
  ranges := hs.ranges
  page := hs.page
  rows p hp := h.allowsRows (hs.rows p hp)

/-! ### Listed fields -/

/-- The specification that expects other fields and is the same in all else. -/
def listing (s : Specification) (fields : Option (List String)) : Specification :=
  { s with allowedFields := fields }

/-- A field that is not listed draws a warning, and a warning is no error. -/
theorem errors_checkName_listing (s : Specification) (fields : Option (List String))
    (path : String) : ((s.listing fields).checkName path).errors = (s.checkName path).errors := by
  have herrors : ∀ u : Specification, (u.checkName path).errors =
      if path ∈ u.forbiddenFields then [.forbiddenField path] else [] := by
    intro u
    rw [checkName]
    by_cases hpath : path ∈ u.forbiddenFields
    · rw [if_pos hpath, if_pos hpath]
      rfl
    · rw [if_neg hpath, if_neg hpath]
      cases u.allowedFields with
      | none => rfl
      | some allowed => by_cases hallowed : path ∈ allowed <;> simp [hallowed, Report.clean]
  rw [herrors, herrors]
  rfl

theorem errors_checkField_listing (s : Specification) (fields : Option (List String))
    (path : String) :
    ((s.listing fields).checkField path).errors = (s.checkField path).errors := by
  rw [checkField, checkField, Report.errors_append, Report.errors_append,
    errors_checkName_listing]
  rfl

theorem errors_check_listing (s : Specification) (fields : Option (List String)) (r : Request) :
    ((s.listing fields).check r).errors = (s.check r).errors := by
  have hrange : ∀ range : RangeFilter,
      ((s.listing fields).checkRange range).errors = (s.checkRange range).errors := by
    intro range
    rw [checkRange, checkRange, Report.errors_append, Report.errors_append,
      errors_checkField_listing]
  have hrows : (s.listing fields).checkRows = s.checkRows := by
    funext p
    cases p <;> rfl
  simp only [check, Report.errors_append, Report.errors_concat, List.flatMap_map,
    errors_checkField_listing, hrange, hrows]

end Specification

open Specification

variable {s t : Specification}

/-- **Tightening admits no more**: a request that is valid under the tighter of two specifications
is valid under the wider one and without any; and which fields are listed has no effect on
errors. -/
theorem Request.isValid_of_tightens (h : s.Tightens t) (r : Request) :
    ((r.validate (some s)).isValid = true →
      (r.validate (some t)).isValid = true ∧ (r.validate none).isValid = true) ∧
    ∀ (u : Specification) (fields : Option (List String)),
      (r.validate (some (u.listing fields))).errors = (r.validate (some u)).errors := by
  refine ⟨fun hs => ⟨?_, rfl⟩, fun u fields => u.errors_check_listing fields r⟩
  rw [isValid_validate_iff] at hs ⊢
  exact h.accepts hs

/-- One more forbidden field, a list of relations where there was none, and smaller pages; the wider
specification lists no field that the request uses. -/
theorem Request.isValid_of_smaller_pages :
    let s := ((Specification.empty.forbidFields ["email", "phone"]).allowRelations
      ["author"]).withMaxPageSize (.clamp zero_le_unsignedMax 20)
    let t := ((Specification.empty.forbidFields ["phone"]).withMaxPageSize
      (.clamp zero_le_unsignedMax 50)).allowFields []
    let r := ((Request.empty.apply (.filter "author.name" (.string "Ada"))).apply
      (.page (.clamp signedMin_le_signedMax 2))).apply (.rows (.clamp signedMin_le_signedMax 20))
    s.Tightens t ∧ (r.validate (some s)).isValid = true ∧ (r.validate (some t)).isValid = true ∧
      (r.validate (some (t.listing none))).errors = (r.validate (some t)).errors := by
  intro s t r
  have h : s.Tightens t :=
    { fields := by decide +kernel
      relations := fun wide hwide => by simp [t, Specification.empty, forbidFields,
        withMaxPageSize, allowFields] at hwide
      rows := fun upper hupper => ⟨_, rfl, by
        obtain rfl : Bounded.clamp zero_le_unsignedMax 50 = upper := Option.some.inj hupper
        decide⟩ }
  have hs : (r.validate (some s)).isValid = true := by decide +kernel
  obtain ⟨hvalid, herrors⟩ := Request.isValid_of_tightens h r
  exact ⟨h, hs, (hvalid hs).1, herrors t none⟩

end ListQuery
