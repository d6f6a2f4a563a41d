import ListQuery.Builder
import ListQuery.Proofs.Acceptance

/-!
# The largest page

A specification bounds the number of rows that a request may ask for, and the number that is taken
is computed elsewhere, from the page and the rows together, with a default of its own. For a query
that was not refused the two agree where both parameters are given: then the rows are an integer
from 1 on up to the bound, and just that many are taken.

A request that leaves one of them out takes `Window.defaultSize` rows, whatever the bound says, as no
check has anything to say about a parameter that is not there. Rows without a page have no effect
either, within the bound or not. So the bound holds of all queries only if it is not below the
default (`take_of_tryBuild`).
-/

namespace ListQuery.Builder

variable {b : Builder} {s : Specification} {maximum : Unsigned64} {r : Request} {q : Query}

/-- What is built under a specification was accepted by it. -/
theorem accepts_of_tryBuild (hs : b.specification = some s) (h : b.tryBuild r = .ok q) :
    s.Accepts r := by
  have hvalid := (tryBuild_eq_ok_iff.1 h).1
  rw [validate, hs] at hvalid
  exact Request.isValid_validate_iff.1 hvalid

theorem window_of_tryBuild (h : b.tryBuild r = .ok q) : q.window = .ofParams r.page r.rows := by
  rw [← (tryBuild_eq_ok_iff.1 h).2, window_buildUnchecked]

/-- **The largest page is kept to**: a query that is built takes no more rows than the specification
allows if its request has a page and a number of rows, and the default number if it leaves one of
them out. -/
theorem take_of_tryBuild (hs : b.specification = some s) (hm : s.maxPageSize = some maximum)
    (h : b.tryBuild r = .ok q) :
    (r.page.isSome → r.rows.isSome → q.window.take.val ≤ maximum.val) ∧
      (r.page = none ∨ r.rows = none → q.window.take.val = 10) := by
  rw [window_of_tryBuild h]
  refine ⟨fun hpage hrows => ?_, fun hnone => ?_⟩
  · obtain ⟨page, hpage⟩ := Option.isSome_iff_exists.1 hpage
    obtain ⟨rows, hrows⟩ := Option.isSome_iff_exists.1 hrows
    have hacc := accepts_of_tryBuild hs h
    obtain ⟨p, rfl, -⟩ := hacc.page page hpage
    obtain ⟨n, rfl, hpos, hle⟩ := hacc.rows rows hrows
    rw [hpage, hrows, Window.take_ofParams_valid, Window.val_count (by omega)]
    exact hle maximum hm
  · rw [Window.take_ofParams_of_none hnone]
    rfl

/-- The third page of as many rows as there may be. -/
theorem take_of_third_page :
    let maximum : Unsigned64 := .clamp zero_le_unsignedMax 50
    let s := Specification.empty.withMaxPageSize maximum
    let b := (Builder.empty.withSpecification s).withMapping (Mapping.empty.rename "a" "b")
    let r := (Request.empty.apply (.page (.clamp signedMin_le_signedMax 3))).apply
      (.rows (.clamp signedMin_le_signedMax 50))
    ∃ q, b.tryBuild r = .ok q ∧ q.window.take.val ≤ maximum.val := by
  intro maximum s b r
  have h : b.tryBuild r = .ok (b.buildUnchecked r) :=
    tryBuild_eq_ok_iff.2 ⟨by decide +kernel, rfl⟩
  exact ⟨_, h, (take_of_tryBuild rfl rfl h).1 rfl rfl⟩

/-- A page of five rows at most, and ten that are taken: without a page and rows, without rows, and
without a page. -/
theorem default_take_exceeds_maximum :
    let maximum : Unsigned64 := .clamp zero_le_unsignedMax 5
    let b := Builder.empty.withSpecification (Specification.empty.withMaxPageSize maximum)
    1 ≤ maximum.val ∧
      ∀ r ∈ [Request.empty, Request.empty.apply (.page (.clamp signedMin_le_signedMax 1)),
          Request.empty.apply (.rows (.clamp signedMin_le_signedMax 3))],
        ∃ q, b.tryBuild r = .ok q ∧ q.window.take.val = 10 ∧ maximum.val < q.window.take.val := by
  intro maximum b
  refine ⟨by decide, fun r hr => ⟨b.buildUnchecked r, tryBuild_eq_ok_iff.2 ⟨?_, rfl⟩, ?_⟩⟩
  · revert r
    decide +kernel
  · revert r
    decide +kernel

end ListQuery.Builder
