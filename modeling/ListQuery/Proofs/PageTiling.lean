import ListQuery.Window.Words
import Mathlib.Logic.ExistsUnique

/-!
# Pages that tile a result

A page and a number of rows per page are a window on the rows of a result. The window is exact: as
many rows are taken as the parameters say, and all rows of the pages in front are skipped, up to the
greatest word. Words that saturate compute just that (`toNat_wordsOfParams`), as every intermediate
result has the sign that the next step asks for: only a difference can be negative, and it is taken
to zero before it is multiplied.

Rows from zero on are then in the window of a page exactly if they leave the number of the page, less
one, when they are divided by the rows per page (`shows_iff`). So no row is on two pages, and none is
left out between the first page and a last one, as long as the rows of these pages can be counted in
words (`ofParams_tiles`).
-/

namespace ListQuery.Window

/-- Rows per page: the number of the parameter, which counts as zero if it is negative, or ten if
there is none. -/
def pageSize (rows : Option PageParam) : Int :=
  match rows.bind PageParam.value? with
  | none => 10
  | some n => max n.val 0

/-- A row, counted from zero, is in the window. -/
def Shows (w : Window) (row : Int) : Prop :=
  w.skip.val ≤ row ∧ row < w.skip.val + w.take.val

/-! ### The exact window -/

variable {rows : Option PageParam} {page last : Signed64}

theorem val_take : (ofParams (some (.valid page)) rows).take.val = pageSize rows := by
  show (match rows.bind PageParam.value? with
    | none => defaultSize
    | some n => count n).val = pageSize rows
  rw [pageSize]
  cases rows.bind PageParam.value? with
  | none => rfl
  | some n => exact val_count_eq_max n

theorem pageSize_nonneg (rows : Option PageParam) : 0 ≤ pageSize rows := by
  rw [pageSize]
  split <;> omega

theorem val_skip : (ofParams (some (.valid page)) rows).skip.val =
    min 18446744073709551615 (max (page.val - 1) 0 * pageSize rows) := by
  have hnonneg : 0 ≤ max (page.val - 1) 0 * pageSize rows :=
    Int.mul_nonneg (by omega) (pageSize_nonneg rows)
  have hbefore : (ofParams (some (.valid page)) rows).skip =
      before page (ofParams (some (.valid page)) rows).take := rfl
  rw [hbefore, before, Bounded.val_clamp, val_take]
  omega

theorem ofParams_of_none {page : Option PageParam} (h : page.bind PageParam.value? = none) :
    ofParams page rows = first := by
  rw [ofParams, h]

theorem toNat_sizeWord (rows : Option PageParam) : ((sizeWord rows).toNat : Int) = pageSize rows := by
  rw [sizeWord, pageSize]
  cases rows.bind PageParam.value? with
  | none => rfl
  | some n => exact (Word.toNat_orZero _).trans (by rw [Word.toInt_toWord])

/-- Words that saturate give the exact window. -/
theorem toNat_wordsOfParams (page rows : Option PageParam) :
    ((wordsOfParams page rows).1.toNat : Int) = (ofParams page rows).take.val ∧
      ((wordsOfParams page rows).2.toNat : Int) = (ofParams page rows).skip.val := by
  cases hpage : page.bind PageParam.value? with
  | none =>
    rw [wordsOfParams, ofParams, hpage]
    exact ⟨rfl, rfl⟩
  | some n =>
    have hlo := n.lo_le
    have hhi := n.le_hi
    have hoffset : ((n.toWord.subSaturating 1).orZero.toNat : Int) = max (n.val - 1) 0 := by
      rw [Word.toNat_orZero, Word.toInt_subSaturating, Word.toInt_toWord,
        show (1 : Word).toInt = 1 from rfl]
      omega
    have hwords : wordsOfParams page rows =
        (sizeWord rows, (n.toWord.subSaturating 1).orZero.mulSaturating (sizeWord rows)) := by
      rw [wordsOfParams, hpage]
    have hparams : ofParams page rows = ofParams (some (.valid n)) rows := by
      rw [ofParams, hpage]
      rfl
    rw [hwords, hparams, val_take, val_skip, ← toNat_sizeWord, ← hoffset]
    refine ⟨rfl, ?_⟩
    rw [Word.toNat_mulSaturating, ← Int.natCast_mul]
    omega

/-! ### Rows on pages -/

/-- The rows in front of a page are counted exactly, if the rows up to a later page are words. -/
theorem val_skip_of_le (hpage : 1 ≤ page.val) (hle : page.val ≤ last.val)
    (hfit : last.val * pageSize rows ≤ 18446744073709551615) :
    (ofParams (some (.valid page)) rows).skip.val = (page.val - 1) * pageSize rows := by
  have hmono : (page.val - 1) * pageSize rows ≤ last.val * pageSize rows :=
    Int.mul_le_mul_of_nonneg_right (by omega) (pageSize_nonneg rows)
  rw [val_skip, show max (page.val - 1) 0 = page.val - 1 by omega]
  omega

/-- A row is on the page that it is divided to. -/
theorem shows_iff (hsize : 1 ≤ pageSize rows) (hpage : 1 ≤ page.val) (hle : page.val ≤ last.val)
    (hfit : last.val * pageSize rows ≤ 18446744073709551615) (row : Int) :
    (ofParams (some (.valid page)) rows).Shows row ↔ row / pageSize rows = page.val - 1 := by
  rw [Shows, val_skip_of_le hpage hle hfit, val_take]
  have hpos : 0 < pageSize rows := hsize
  have hlower := Int.le_ediv_iff_mul_le (a := page.val - 1) (b := row) hpos
  have hupper := Int.ediv_lt_iff_lt_mul (a := row) (b := page.val - 1 + 1) hpos
  rw [Int.add_mul, Int.one_mul] at hupper
  omega

/-- Below the last page, every row is on one page and on no other. -/
theorem existsUnique_page (hsize : 1 ≤ pageSize rows)
    (hfit : last.val * pageSize rows ≤ 18446744073709551615) {row : Int} (hrow : 0 ≤ row)
    (hlt : row < last.val * pageSize rows) :
    ∃! page : Signed64, (1 ≤ page.val ∧ page.val ≤ last.val) ∧
      (ofParams (some (.valid page)) rows).Shows row := by
  have hpos : 0 < pageSize rows := hsize
  have hhi := last.le_hi
  have hnonneg : 0 ≤ row / pageSize rows := Int.ediv_nonneg hrow (by omega)
  have hbelow : row / pageSize rows < last.val := (Int.ediv_lt_iff_lt_mul hpos).2 hlt
  refine ⟨⟨row / pageSize rows + 1, by omega, by omega⟩, ⟨⟨?_, ?_⟩, ?_⟩, ?_⟩
  · show 1 ≤ row / pageSize rows + 1
    omega
  · show row / pageSize rows + 1 ≤ last.val
    omega
  · refine (shows_iff hsize ?_ ?_ hfit row).2 ?_ <;> dsimp only <;> omega
  · rintro page ⟨⟨hpage, hle⟩, hshows⟩
    have hdiv := (shows_iff hsize hpage hle hfit row).1 hshows
    ext
    dsimp only
    omega

/-- **Pages tile a result.** A valid page takes as many rows as the parameters say and skips the rows
of the pages in front, up to the greatest word; without a valid page these are the first ten rows.
Words that saturate compute the same. And if a page has rows, and the rows up to a last page can be
counted in words, then each of these rows is on one of these pages and on no other. -/
theorem ofParams_tiles (rows : Option PageParam) :
    (∀ page : Signed64,
      (ofParams (some (.valid page)) rows).take.val = pageSize rows ∧
        (ofParams (some (.valid page)) rows).skip.val =
          min 18446744073709551615 (max (page.val - 1) 0 * pageSize rows)) ∧
      (∀ page : Option PageParam, page.bind PageParam.value? = none →
        (ofParams page rows).take.val = 10 ∧ (ofParams page rows).skip.val = 0) ∧
      (∀ page : Option PageParam,
        ((wordsOfParams page rows).1.toNat : Int) = (ofParams page rows).take.val ∧
          ((wordsOfParams page rows).2.toNat : Int) = (ofParams page rows).skip.val) ∧
      ∀ last : Signed64, 1 ≤ last.val → 1 ≤ pageSize rows →
        last.val * pageSize rows ≤ 18446744073709551615 →
        ∀ row : Int, 0 ≤ row → row < last.val * pageSize rows →
          ∃! page : Signed64, (1 ≤ page.val ∧ page.val ≤ last.val) ∧
            (ofParams (some (.valid page)) rows).Shows row := by
  refine ⟨?_, ?_, ?_, ?_⟩
  · exact fun page => ⟨val_take, val_skip⟩
  · intro page hnone
    rw [ofParams_of_none hnone]
    exact ⟨rfl, rfl⟩
  · exact fun page => toNat_wordsOfParams page rows
  · intro last _ hsize hfit row hrow hlt
    exact existsUnique_page hsize hfit hrow hlt

/-- With two rows per page and all numbers of pages, the last row before the greatest word is on one
page. A page that is no number gives the first ten rows. -/
theorem last_row_on_one_page :
    let rows := some (PageParam.valid ⟨2, by decide, by decide⟩)
    (ofParams (some (.invalid (.string "last"))) rows).take.val = 10 ∧
      ∃! page : Signed64, (1 ≤ page.val ∧ page.val ≤ 9223372036854775807) ∧
        (ofParams (some (.valid page)) rows).Shows 18446744073709551613 := by
  intro rows
  obtain ⟨-, hinvalid, -, htiles⟩ := ofParams_tiles rows
  have hpage := htiles ⟨9223372036854775807, by decide, by decide⟩ (by decide) (by decide)
    (by decide) 18446744073709551613 (by decide) (by decide)
  exact ⟨(hinvalid (some (.invalid (.string "last"))) rfl).1, hpage⟩

end ListQuery.Window
