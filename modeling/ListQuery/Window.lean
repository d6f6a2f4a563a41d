import ListQuery.PageParam

/-!
# Page windows

A page number and a number of rows per page become a window on the result: how many rows to take
and how many to skip. Without a page number the window is the first ten rows, whatever the number
of rows per page says. The skip saturates at 64 bits.
-/

namespace ListQuery

/-- A window on the rows of a result. -/
@[ext] structure Window where
  take : Unsigned64
  skip : Unsigned64
deriving DecidableEq

namespace Window

/-- Rows per page, unless a request says otherwise. -/
def defaultSize : Unsigned64 := .clamp zero_le_unsignedMax 10

/-- The first rows. -/
def first : Window := ⟨defaultSize, .clamp zero_le_unsignedMax 0⟩

/-- A signed integer as a count: negative ones count as zero. -/
def count (n : Signed64) : Unsigned64 := .clamp zero_le_unsignedMax n.val

/-- The rows in front of a page. -/
def before (page : Signed64) (size : Unsigned64) : Unsigned64 :=
  .clamp zero_le_unsignedMax (max (page.val - 1) 0 * size.val)

/-- The window of the parameters; a parameter that is no integer counts as absent. -/
def ofParams (page rows : Option PageParam) : Window :=
  match page.bind PageParam.value? with
  | none => first
  | some page =>
    let size := match rows.bind PageParam.value? with
      | none => defaultSize
      | some rows => count rows
    ⟨size, before page size⟩

theorem val_count_eq_max (n : Signed64) : (count n).val = max n.val 0 := by
  have hmax := n.le_hi
  rw [count, Bounded.val_clamp]
  omega

theorem val_count {n : Signed64} (h : 0 ≤ n.val) : (count n).val = n.val := by
  rw [val_count_eq_max]
  omega

/-- With a page and a number of rows, that many rows are taken. -/
theorem take_ofParams_valid (page rows : Signed64) :
    (ofParams (some (.valid page)) (some (.valid rows))).take = count rows := rfl

/-- Without one of them, the default is. -/
theorem take_ofParams_of_none {page rows : Option PageParam} (h : page = none ∨ rows = none) :
    (ofParams page rows).take = defaultSize := by
  rcases h with rfl | rfl
  · rfl
  · rw [ofParams]
    cases page.bind PageParam.value? <;> rfl

end Window

end ListQuery
