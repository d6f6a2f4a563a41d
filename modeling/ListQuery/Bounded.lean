/-!
# Integers between two bounds

`Bounded lo hi` holds the integers from `lo` to `hi`. Page numbers, row counts and the integers of a
JSON number are such types, so that "fits into 64 bits" is part of the type and never checked twice.
`clamp` is the one way to leave the range and come back: it takes the nearest bound, which is what
saturating arithmetic does when the exact result is clamped at the end.
-/

namespace ListQuery

/-- An integer from `lo` to `hi`, both included. -/
@[ext] structure Bounded (lo hi : Int) where
  val : Int
  lo_le : lo ≤ val
  le_hi : val ≤ hi
deriving DecidableEq

namespace Bounded

variable {lo hi : Int}

/-- The member of the range that is nearest to `n`. -/
def clamp (h : lo ≤ hi) (n : Int) : Bounded lo hi :=
  ⟨max lo (min hi n), by omega, by omega⟩

/-- The integer itself, when it is in the range. -/
def ofInt? (n : Int) : Option (Bounded lo hi) :=
  if h : lo ≤ n ∧ n ≤ hi then some ⟨n, h.1, h.2⟩ else none

theorem val_clamp (h : lo ≤ hi) (n : Int) : (clamp h n).val = max lo (min hi n) := rfl

theorem val_clamp_of_mem (h : lo ≤ hi) {n : Int} (h₁ : lo ≤ n) (h₂ : n ≤ hi) :
    (clamp h n).val = n := by
  rw [val_clamp]; omega

theorem ofInt?_val (b : Bounded lo hi) : ofInt? b.val = some b := by
  simp [ofInt?, b.lo_le, b.le_hi]

theorem ofInt?_eq_some_iff {n : Int} {b : Bounded lo hi} : ofInt? n = some b ↔ b.val = n := by
  unfold ofInt?
  split
  · simp [Bounded.ext_iff, eq_comm]
  · rename_i h
    constructor
    · simp
    · rintro rfl; exact absurd ⟨b.lo_le, b.le_hi⟩ h

theorem ofInt?_eq_none_iff {n : Int} :
    (ofInt? n : Option (Bounded lo hi)) = none ↔ ¬ (lo ≤ n ∧ n ≤ hi) := by
  unfold ofInt?
  split <;> simp_all

end Bounded

/-- Signed 64-bit integers: page numbers and row counts as clients send them. -/
abbrev Signed64 := Bounded (-9223372036854775808) 9223372036854775807

theorem signedMin_le_signedMax : (-9223372036854775808 : Int) ≤ 9223372036854775807 := by decide

/-- Unsigned 64-bit integers: how many rows to take and to skip. -/
abbrev Unsigned64 := Bounded 0 18446744073709551615

theorem zero_le_unsignedMax : (0 : Int) ≤ 18446744073709551615 := by decide

end ListQuery
