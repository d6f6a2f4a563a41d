import ListQuery.Binary64

/-!
# The shortest decimal of a binary64 number

Every number of the format stands for the reals that round to it, an interval around the number.
`Decimal.shortest` gives the decimal of the fewest digits in that interval, and of those the nearest
to the number. It looks on the grids of multiples of `10 ^ k`, from a coarse one down: on the first
grid that has a point in the interval, one of the two grid points next to the number is in it.

`Layout` says how digits are written: which magnitudes have positional notation and how the exponent
of the others looks.
-/

namespace ListQuery

/-- The decimal `digits * 10 ^ exponent`, without a sign. -/
structure Decimal where
  digits : Nat
  exponent : Int
deriving DecidableEq

namespace Decimal

/--
The interval of the reals that round to a number, in units of `2 ^ unit`: lower end, number, upper
end. Both ends belong to it exactly if the mantissa is even.
-/
structure Interval where
  lower : Nat
  centre : Nat
  upper : Nat
  unit : Int
  closed : Bool

/-- A quarter of the last place is the unit, since below a power of two the gap is half as wide. -/
def interval (x : Binary64) : Interval where
  lower := 4 * x.mantissa - (if x.mantissa = Nat.pow 2 52 ∧ x.exponent ≠ -1074 then 1 else 2)
  centre := 4 * x.mantissa
  upper := 4 * x.mantissa + 2
  unit := x.exponent - 2
  closed := x.mantissa % 2 == 0

/-- `2 ^ unit / 10 ^ k` as a quotient of two naturals. -/
def gridRatio (unit k : Int) : Nat × Nat :=
  (Nat.pow 2 unit.toNat * Nat.pow 10 (-k).toNat, Nat.pow 2 (-unit).toNat * Nat.pow 10 k.toNat)

/-- The multiple `d * 10 ^ k` lies in the interval. -/
def Interval.hasPoint (i : Interval) (k : Int) (d : Nat) : Bool :=
  let (a, b) := gridRatio i.unit k
  if i.closed then i.lower * a ≤ d * b && d * b ≤ i.upper * a
  else i.lower * a < d * b && d * b < i.upper * a

/-- The multiple of `10 ^ k` at or below the number. -/
def Interval.floor (i : Interval) (k : Int) : Nat :=
  let (a, b) := gridRatio i.unit k
  i.centre * a / b

/-- Of two neighbours on the grid, the one nearer to the number; halfway, the even one. -/
def Interval.nearer (i : Interval) (k : Int) (d : Nat) : Nat :=
  let (a, b) := gridRatio i.unit k
  let below := i.centre * a - d * b
  let above := (d + 1) * b - i.centre * a
  if below < above then d
  else if above < below then d + 1
  else if d % 2 = 0 then d
  else d + 1

/-- The grid point of the interval that is nearest to the number, if the grid has one there. -/
def Interval.pointOn? (i : Interval) (k : Int) : Option Nat :=
  let d := i.floor k
  match i.hasPoint k d, i.hasPoint k (d + 1) with
  | true, true => some (i.nearer k d)
  | true, false => some d
  | false, true => some (d + 1)
  | false, false => none

/-- Look on the grid of `10 ^ k`, then on finer ones, for at most `steps` of them. -/
def Interval.search (i : Interval) : Nat → Int → Decimal
  | 0, k => ⟨i.floor k, k⟩
  | steps + 1, k =>
    match i.pointOn? k with
    | some d => ⟨d, k⟩
    | none => i.search steps (k - 1)

/-- A power of ten above the number: its bit length times the logarithm of two, rounded up. -/
def startingPower (x : Binary64) : Int :=
  (x.exponent + x.mantissa.log2 + 1) * 30103 / 100000 + 2

/--
The decimal of the fewest digits that rounds to `x`, nearest to `x` among those. Seventeen digits
always suffice, and the search starts at most four powers above the first digit.
-/
def shortest (x : Binary64) : Decimal :=
  if x.isZero then ⟨0, 0⟩ else (interval x).search 24 (startingPower x)

/-- How a decimal is written. -/
structure Layout where
  /-- The least position of the point for which digits are written out; zeros fill in front. -/
  firstPoint : Int
  /-- The greatest such position; zeros fill behind. -/
  lastPoint : Int

/-- Digits `0` in front of or behind others. -/
def zeros (n : Int) : List Char := List.replicate n.toNat '0'

/-- Digits with the point after the first `point` of them, and at least one digit on each side. -/
def positional (digits : List Char) (point : Int) : List Char :=
  if point ≤ 0 then ['0', '.'] ++ zeros (-point) ++ digits
  else if (digits.length : Int) ≤ point then
    digits ++ zeros (point - digits.length) ++ ['.', '0']
  else digits.take point.toNat ++ '.' :: digits.drop point.toNat

/-- One digit, a point if more follow, and the exponent with its sign. -/
def scientific (digits : List Char) (point : Int) : List Char :=
  let exponent := point - 1
  let fraction := match digits.drop 1 with
    | [] => []
    | rest => '.' :: rest
  digits.take 1 ++ fraction ++
    ['e', if exponent < 0 then '-' else '+'] ++ Nat.toDigits 10 exponent.natAbs

/-- The text of a decimal. -/
def Layout.write (l : Layout) (d : Decimal) : List Char :=
  let digits := Nat.toDigits 10 d.digits
  let point := d.exponent + digits.length
  if l.firstPoint ≤ point ∧ point ≤ l.lastPoint then positional digits point
  else scientific digits point

end Decimal

end ListQuery
