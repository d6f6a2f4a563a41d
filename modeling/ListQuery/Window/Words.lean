import ListQuery.Window

/-!
# Windows in words

The window of a page computed in words of 64 bits. Sums and products of words wrap around, so each
operation comes with its test for overflow and has a bound to take instead: `subSaturating` and
`mulSaturating` are exact up to the bounds (`toInt_subSaturating`, `toNat_mulSaturating`).
-/

namespace ListQuery

/-- A word of 64 bits, read as a signed or as an unsigned integer. -/
abbrev Word := BitVec 64

/-- A signed integer as a word. -/
def Signed64.toWord (n : Signed64) : Word := .ofInt 64 n.val

namespace Word

/-- The difference of signed words, or the bound that it passes. -/
def subSaturating (a b : Word) : Word :=
  if a.ssubOverflow b then if a.msb then .intMin 64 else .intMax 64 else a - b

/-- A signed word as a count: negative ones count as zero. -/
def orZero (a : Word) : Word := if a.msb then 0 else a

/-- The product of unsigned words, or the greatest word if it is larger. -/
def mulSaturating (a b : Word) : Word := if a.umulOverflow b then .allOnes 64 else a * b

theorem toInt_toWord (n : Signed64) : n.toWord.toInt = n.val := by
  have hlo := n.lo_le
  have hhi := n.le_hi
  rw [Signed64.toWord, BitVec.toInt_ofInt_eq_self (by decide)] <;> omega

theorem toInt_subSaturating (a b : Word) :
    (subSaturating a b).toInt =
      max (-9223372036854775808) (min 9223372036854775807 (a.toInt - b.toInt)) := by
  have ha := a.toInt_lt
  have ha' := a.le_toInt
  have hb := b.toInt_lt
  have hb' := b.le_toInt
  rw [subSaturating, BitVec.msb_eq_toInt]
  split
  case isTrue h =>
    have hout : 9223372036854775808 ≤ a.toInt - b.toInt ∨
        a.toInt - b.toInt < -9223372036854775808 := by
      simpa [BitVec.ssubOverflow] using h
    split
    case isTrue hneg =>
      rw [show (BitVec.intMin 64).toInt = -9223372036854775808 from rfl]
      rw [decide_eq_true_eq] at hneg
      omega
    case isFalse hneg =>
      rw [show (BitVec.intMax 64).toInt = 9223372036854775807 from rfl]
      rw [decide_eq_true_eq] at hneg
      omega
  case isFalse h =>
    have hin : ¬ (9223372036854775808 ≤ a.toInt - b.toInt ∨
        a.toInt - b.toInt < -9223372036854775808) := by
      simpa [BitVec.ssubOverflow] using h
    rw [BitVec.toInt_sub_of_not_ssubOverflow h]
    omega

theorem toNat_orZero (a : Word) : ((orZero a).toNat : Int) = max a.toInt 0 := by
  have hlt := a.isLt
  rw [orZero, BitVec.toInt_eq_msb_cond]
  split
  · rw [show (0 : Word).toNat = 0 from rfl]
    omega
  · omega

theorem toNat_mulSaturating (a b : Word) :
    (mulSaturating a b).toNat = min 18446744073709551615 (a.toNat * b.toNat) := by
  rw [mulSaturating]
  split
  case isTrue h =>
    have hout : 18446744073709551616 ≤ a.toNat * b.toNat := by
      simpa [BitVec.umulOverflow] using h
    rw [show (BitVec.allOnes 64).toNat = 18446744073709551615 from rfl]
    omega
  case isFalse h =>
    have hin : a.toNat * b.toNat < 18446744073709551616 := by
      simpa [BitVec.umulOverflow] using h
    rw [BitVec.toNat_mul_of_not_umulOverflow h]
    omega

end Word

namespace Window

/-- Rows per page, as a word. -/
def sizeWord (rows : Option PageParam) : Word :=
  match rows.bind PageParam.value? with
  | none => 10
  | some n => n.toWord.orZero

/-- Rows to take and rows to skip, as words. -/
def wordsOfParams (page rows : Option PageParam) : Word × Word :=
  match page.bind PageParam.value? with
  | none => (10, 0)
  | some page =>
    let offset := (page.toWord.subSaturating 1).orZero
    (sizeWord rows, offset.mulSaturating (sizeWord rows))

end Window

end ListQuery
