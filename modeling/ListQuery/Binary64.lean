/-!
# Binary64 numbers

The finite numbers of the 64-bit binary floating-point format, as sign, integer mantissa and power
of two. The bounds of the format are part of the type, and every number has one form: the mantissa
uses all 53 bits unless the exponent is the least one. So equality of values of this type tells
exactly the finite bit patterns apart, `0.0` and `-0.0` included.

All arithmetic is on integers. An operation gives the exact result as a quotient of two naturals and
`ofRatio?` rounds it, to the nearest number of the format, a half to the even mantissa.
-/

namespace ListQuery

/-- A finite number `± mantissa * 2 ^ exponent`. -/
@[ext] structure Binary64 where
  negative : Bool
  mantissa : Nat
  exponent : Int
  mantissa_lt : mantissa < Nat.pow 2 53
  le_exponent : -1074 ≤ exponent
  exponent_le : exponent ≤ 971
  full : Nat.pow 2 52 ≤ mantissa ∨ exponent = -1074
deriving DecidableEq

namespace Binary64

/-- The number with these parts, if the format has it in this form. -/
def ofParts? (negative : Bool) (mantissa : Nat) (exponent : Int) : Option Binary64 :=
  if h : mantissa < Nat.pow 2 53 ∧ -1074 ≤ exponent ∧ exponent ≤ 971 ∧
      (Nat.pow 2 52 ≤ mantissa ∨ exponent = -1074) then
    some ⟨negative, mantissa, exponent, h.1, h.2.1, h.2.2.1, h.2.2.2⟩
  else none

/-- Zero with a sign. -/
def zero (negative : Bool) : Binary64 :=
  ⟨negative, 0, -1074, by decide, by decide, by decide, .inr rfl⟩

instance : Inhabited Binary64 := ⟨zero false⟩

/-- `num / den` rounded to the nearest natural, a half to the even one. -/
def roundHalfEven (num den : Nat) : Nat :=
  let q := num / den
  let r := num % den
  if 2 * r < den then q
  else if den < 2 * r then q + 1
  else if q % 2 = 0 then q
  else q + 1

/-- `num / den` in units of `2 ^ e`, as a quotient again. -/
def scaled (num den : Nat) (e : Int) : Nat × Nat :=
  (num * Nat.pow 2 (-e).toNat, den * Nat.pow 2 e.toNat)

/--
The exponent at which the mantissa of `num / den` has 53 bits, or the least exponent. The bit
lengths of the two naturals give it up to one, and one comparison decides.
-/
def exponentOf (num den : Nat) : Int :=
  let e : Int := (num.log2 : Int) - den.log2 - 52
  let (n, d) := scaled num den e
  max (-1074) (if n < d * Nat.pow 2 52 then e - 1 else e)

/-- `± num / den` rounded to the nearest number; `none` beyond the largest finite one. -/
def ofRatio? (negative : Bool) (num den : Nat) : Option Binary64 :=
  if num = 0 then some (zero negative)
  else
    let e := exponentOf num den
    let (n, d) := scaled num den e
    let m := roundHalfEven n d
    if m = Nat.pow 2 53 then ofParts? negative (Nat.pow 2 52) (e + 1) else ofParts? negative m e

/-- The magnitude as a quotient of two naturals. -/
def magnitude (x : Binary64) : Nat × Nat :=
  (x.mantissa * Nat.pow 2 x.exponent.toNat, Nat.pow 2 (-x.exponent).toNat)

/-- One of the two zeros. -/
def isZero (x : Binary64) : Bool := x.mantissa == 0

/-- No fractional part. -/
def isIntegral (x : Binary64) : Bool :=
  let (n, d) := x.magnitude
  n % d == 0

/-- The integer part, rounded toward zero. -/
def truncate (x : Binary64) : Int :=
  let (n, d) := x.magnitude
  if x.negative then -((n / d : Nat) : Int) else ((n / d : Nat) : Int)

/-- The product of a number and `10 ^ k`, both rounded, for the power rounded first. -/
def timesPowerOfTen? (x : Binary64) (k : Nat) : Option Binary64 := do
  let (pn, pd) := (← ofRatio? false (Nat.pow 10 k) 1).magnitude
  let (n, d) := x.magnitude
  ofRatio? x.negative (n * pn) (d * pd)

/-- The quotient of a number and `10 ^ k`, both rounded, for the power rounded first. -/
def overPowerOfTen? (x : Binary64) (k : Nat) : Option Binary64 := do
  let (pn, pd) := (← ofRatio? false (Nat.pow 10 k) 1).magnitude
  let (n, d) := x.magnitude
  ofRatio? x.negative (n * pd) (d * pn)

/--
`± digits * 10 ^ exponent` rounded once; `none` beyond the largest finite number. Two tests in front
keep the powers of ten small: what exceeds them overflows, or vanishes, for any digits.
-/
def ofDecimal? (negative : Bool) (digits : Nat) (exponent : Int) : Option Binary64 :=
  if digits = 0 then some (zero negative)
  else if 309 < exponent then none
  else if exponent + digits.log2 < -1100 then some (zero negative)
  else ofRatio? negative (digits * Nat.pow 10 exponent.toNat) (Nat.pow 10 (-exponent).toNat)

/--
`± digits * 10 ^ exponent` in two roundings: the digits to the nearest number, then that number
times or over a power of ten. The powers up to `10 ^ 308` are numbers of the format; a smaller
factor is applied in two steps, and below `10 ^ -616` nothing is left. The result may differ from
the nearest number in its last bit.
-/
def ofScaled? (negative : Bool) (digits : Nat) (exponent : Int) : Option Binary64 := do
  let x ← ofRatio? negative digits 1
  if x.isZero then pure x
  else if 308 < exponent then none
  else if 0 ≤ exponent then x.timesPowerOfTen? exponent.toNat
  else if -308 ≤ exponent then x.overPowerOfTen? (-exponent).toNat
  else if -616 ≤ exponent then (← x.overPowerOfTen? 308).overPowerOfTen? (-exponent - 308).toNat
  else pure (zero negative)

theorem ofParts?_eq_some_iff {s : Bool} {m : Nat} {e : Int} {x : Binary64} :
    ofParts? s m e = some x ↔ x.negative = s ∧ x.mantissa = m ∧ x.exponent = e := by
  unfold ofParts?
  split
  · simp [Binary64.ext_iff, eq_comm]
  · rename_i h
    constructor
    · simp
    · rintro ⟨rfl, rfl, rfl⟩
      exact absurd ⟨x.mantissa_lt, x.le_exponent, x.exponent_le, x.full⟩ h

end Binary64

end ListQuery
