import ListQuery.Decimal.Shortest
import Mathlib.Algebra.Order.Field.Power
import Mathlib.Data.Rat.Cast.Order
import Mathlib.Tactic.Linarith
import Mathlib.Tactic.LinearCombination
import Mathlib.Tactic.Positivity
import Mathlib.Tactic.Ring

/-!
# Where the shortest decimal lies

`Decimal.shortest` compares naturals, and what it finds is a matter of rational numbers. A number of
the format stands for `mantissa * 2 ^ exponent` (`Binary64.abs`), a decimal for
`digits * 10 ^ exponent` (`Decimal.value`), and as such the ends of an interval and the points of a
grid are compared (`mul_gridRatio_le_iff`).

The search ends at the first grid that has a point in the interval: the last one it comes to is
finer than half a last place (`shortest_eq`). So the shortest decimal is at most half a last place
away (`value_shortest_bounds`), and up to `2 ^ 54` it has the integer part of the number
(`whole_value_shortest`). An integer is its own shortest decimal, since it lies on the grid of the
units, and another number has no integer in its interval. For the same reasons the point of the
shortest decimal stands where the size of the number puts it, at both ends of what is written out
without an exponent (`point_shortest_iff`).
-/

namespace ListQuery

/-- The magnitude of a number. -/
def Binary64.abs (x : Binary64) : ℚ := x.mantissa * 2 ^ x.exponent

/-- The integer part of the magnitude. -/
def Binary64.whole (x : Binary64) : Nat := x.magnitude.1 / x.magnitude.2

theorem Binary64.truncate_eq_whole (x : Binary64) :
    x.truncate = if x.negative then -(x.whole : Int) else x.whole := rfl

namespace Decimal

/-- The number that a decimal writes. -/
def value (d : Decimal) : ℚ := d.digits * 10 ^ d.exponent

/-! ### Grids -/

theorem pow_toNat {a : ℚ} (ha : a ≠ 0) (z : Int) : a ^ z.toNat = a ^ (-z).toNat * a ^ z := by
  rw [← zpow_natCast, ← zpow_natCast, ← zpow_add₀ ha]
  congr 1
  omega

theorem gridRatio_eq (unit k : Int) :
    ((gridRatio unit k).1 : ℚ) * 10 ^ k = (gridRatio unit k).2 * 2 ^ unit := by
  have htwo := pow_toNat (a := 2) (by norm_num) unit
  have hten := pow_toNat (a := 10) (by norm_num) k
  simp only [gridRatio, Nat.pow_eq]
  push_cast
  rw [htwo, hten]
  ring

theorem gridRatio_pos (unit k : Int) : 0 < (gridRatio unit k).2 := by
  simp only [gridRatio, Nat.pow_eq]
  positivity

/-- Units and grid points are compared as the numbers that they stand for. -/
theorem mul_gridRatio_le_iff (unit k : Int) (c d : Nat) :
    (c * (gridRatio unit k).1 ≤ d * (gridRatio unit k).2 ↔
        (c : ℚ) * 2 ^ unit ≤ d * 10 ^ k) ∧
      (d * (gridRatio unit k).2 ≤ c * (gridRatio unit k).1 ↔
        (d : ℚ) * 10 ^ k ≤ c * 2 ^ unit) := by
  have hden : (0 : ℚ) < (gridRatio unit k).2 := by exact_mod_cast gridRatio_pos unit k
  have hten : (0 : ℚ) < 10 ^ k := by positivity
  have hunits : ((c * (gridRatio unit k).1 : Nat) : ℚ) * 10 ^ k =
      c * 2 ^ unit * (gridRatio unit k).2 := by
    push_cast
    linear_combination (c : ℚ) * gridRatio_eq unit k
  have hpoint : ((d * (gridRatio unit k).2 : Nat) : ℚ) * 10 ^ k =
      d * 10 ^ k * (gridRatio unit k).2 := by
    push_cast
    ring
  constructor
  · rw [← Nat.cast_le (α := ℚ), ← mul_le_mul_iff_left₀ hten, hunits, hpoint,
      mul_le_mul_iff_left₀ hden]
  · rw [← Nat.cast_le (α := ℚ), ← mul_le_mul_iff_left₀ hten, hunits, hpoint,
      mul_le_mul_iff_left₀ hden]

/-! ### The interval on a grid -/

namespace Interval

variable {i : Interval} {k : Int} {d : Nat}

/-- A point lies between the ends, at the latest on one of them. -/
theorem bounds_of_hasPoint (h : i.hasPoint k d = true) :
    (i.lower : ℚ) * 2 ^ i.unit ≤ d * 10 ^ k ∧ (d : ℚ) * 10 ^ k ≤ i.upper * 2 ^ i.unit := by
  have hlower := (mul_gridRatio_le_iff i.unit k i.lower d).1
  have hupper := (mul_gridRatio_le_iff i.unit k i.upper d).2
  simp only [hasPoint] at h
  split at h <;> simp only [Bool.and_eq_true, decide_eq_true_eq] at h
  · exact ⟨hlower.1 h.1, hupper.1 h.2⟩
  · exact ⟨hlower.1 h.1.le, hupper.1 h.2.le⟩

/-- What lies between the ends is a point of the interval, whether they belong to it or not. -/
theorem hasPoint_of_lt (hlower : (i.lower : ℚ) * 2 ^ i.unit < d * 10 ^ k)
    (hupper : (d : ℚ) * 10 ^ k < i.upper * 2 ^ i.unit) : i.hasPoint k d = true := by
  rw [← not_le, ← (mul_gridRatio_le_iff i.unit k i.lower d).2, not_le] at hlower
  rw [← not_le, ← (mul_gridRatio_le_iff i.unit k i.upper d).1, not_le] at hupper
  simp only [hasPoint]
  split <;> simp [hlower, hupper, hlower.le, hupper.le]

/-- The grid point at or below the number, and the next one. -/
theorem floor_bounds (i : Interval) (k : Int) :
    (i.floor k : ℚ) * 10 ^ k ≤ i.centre * 2 ^ i.unit ∧
      (i.centre : ℚ) * 2 ^ i.unit < (i.floor k + 1 : Nat) * 10 ^ k := by
  have hpos := gridRatio_pos i.unit k
  have hfloor : i.floor k = i.centre * (gridRatio i.unit k).1 / (gridRatio i.unit k).2 := rfl
  constructor
  · rw [← (mul_gridRatio_le_iff i.unit k i.centre _).2, hfloor]
    exact Nat.div_mul_le_self _ _
  · rw [← not_le, ← (mul_gridRatio_le_iff i.unit k i.centre _).2, not_le, hfloor]
    exact (Nat.div_lt_iff_lt_mul hpos).1 (Nat.lt_succ_self _)

theorem hasPoint_of_pointOn? (h : i.pointOn? k = some d) : i.hasPoint k d = true := by
  simp only [pointOn?] at h
  split at h
  case h_1 hd hd' =>
    obtain rfl := Option.some.inj h
    simp only [nearer]
    split
    · exact hd
    · split
      · exact hd'
      · split
        · exact hd
        · exact hd'
  case h_2 hd _ =>
    obtain rfl := Option.some.inj h
    exact hd
  case h_3 _ hd =>
    obtain rfl := Option.some.inj h
    exact hd
  case h_4 => cases h

/-- A grid has a point in the interval if one of the two next to the number is in it. -/
theorem exists_pointOn? (h : i.hasPoint k (i.floor k) = true ∨
    i.hasPoint k (i.floor k + 1) = true) : ∃ d, i.pointOn? k = some d := by
  simp only [pointOn?]
  split
  case h_1 => exact ⟨_, rfl⟩
  case h_2 => exact ⟨_, rfl⟩
  case h_3 => exact ⟨_, rfl⟩
  case h_4 hd hd' => simp [hd, hd'] at h

/-- On a grid that the number itself lies on, it is found. -/
theorem pointOn?_of_eq (hlower : i.lower < i.centre) (hupper : i.centre < i.upper)
    (h : (i.centre : ℚ) * 2 ^ i.unit = d * 10 ^ k) : i.pointOn? k = some d := by
  have htwo : (0 : ℚ) < 2 ^ i.unit := by positivity
  have hten : (0 : ℚ) < 10 ^ k := by positivity
  have hfloor : i.floor k = d := by
    obtain ⟨hle, hlt⟩ := i.floor_bounds k
    rw [h] at hle hlt
    have hle := (mul_le_mul_iff_left₀ hten).1 hle
    have hlt := (mul_lt_mul_iff_left₀ hten).1 hlt
    norm_cast at hle hlt
    omega
  have hpoint : i.hasPoint k d = true := by
    refine hasPoint_of_lt ?_ ?_
    · rw [← h]
      exact mul_lt_mul_of_pos_right (by exact_mod_cast hlower) htwo
    · rw [← h]
      exact mul_lt_mul_of_pos_right (by exact_mod_cast hupper) htwo
  have hnearer : i.nearer k d = d := by
    have heq := le_antisymm ((mul_gridRatio_le_iff i.unit k i.centre d).1.2 h.le)
      ((mul_gridRatio_le_iff i.unit k i.centre d).2.2 h.ge)
    have hpos := gridRatio_pos i.unit k
    simp only [nearer, heq, Nat.succ_mul]
    rw [if_pos (by omega)]
  simp only [pointOn?, hfloor, hpoint]
  split
  case h_1 => rw [hnearer]
  case h_2 => rfl
  case h_3 heq _ => cases heq
  case h_4 heq _ => cases heq

/-- A point next to the number is in the interval if the grid is finer than what is above. -/
theorem exists_pointOn?_of_lt (hlower : i.lower < i.centre)
    (h : (i.centre : ℚ) * 2 ^ i.unit + 10 ^ k < i.upper * 2 ^ i.unit) :
    ∃ d, i.pointOn? k = some d := by
  obtain ⟨hle, hlt⟩ := i.floor_bounds k
  have htwo : (0 : ℚ) < 2 ^ i.unit := by positivity
  have hends : (i.lower : ℚ) * 2 ^ i.unit < i.centre * 2 ^ i.unit :=
    mul_lt_mul_of_pos_right (by exact_mod_cast hlower) htwo
  refine exists_pointOn? (.inr (hasPoint_of_lt (hends.trans hlt) ?_))
  push_cast
  linarith

/-- The search ends at the first grid that has a point, if there is one on the way. -/
theorem search_eq (steps : Nat) (k : Int)
    (h : ∃ j < steps, ∃ d, i.pointOn? (k - j) = some d) :
    ∃ d k', i.search steps k = ⟨d, k'⟩ ∧ i.pointOn? k' = some d ∧
      ∀ j, k' < j → j ≤ k → i.pointOn? j = none := by
  induction steps generalizing k with
  | zero =>
    obtain ⟨j, hj, -⟩ := h
    cases hj
  | succ steps ih =>
    rw [search]
    cases hfirst : i.pointOn? k with
    | some d => exact ⟨d, k, rfl, hfirst, fun j hlt hle => absurd hlt (not_lt.2 hle)⟩
    | none =>
      obtain ⟨j, hj, d, hd⟩ := h
      cases j with
      | zero => simp [hfirst] at hd
      | succ j =>
        have hnext : k - (j + 1 : Nat) = k - 1 - j := by omega
        obtain ⟨d', k', hsearch, hpoint, hnone⟩ := ih (k - 1) ⟨j, by omega, d, hnext ▸ hd⟩
        refine ⟨d', k', hsearch, hpoint, fun l hlt hle => ?_⟩
        rcases eq_or_lt_of_le hle with rfl | hlt'
        · exact hfirst
        · exact hnone l hlt (by omega)

end Interval

/-! ### The interval of a number -/

section

variable {x : Binary64}

theorem lower_lt_centre (h : x.mantissa ≠ 0) : (interval x).lower < (interval x).centre := by
  simp only [interval]
  split <;> omega

theorem centre_lt_upper (x : Binary64) : (interval x).centre < (interval x).upper := by
  simp only [interval]
  omega

theorem two_zpow_unit (x : Binary64) :
    (2 : ℚ) ^ (interval x).unit = 2 ^ x.exponent / 4 := by
  rw [interval, zpow_sub₀ (by norm_num)]
  norm_num

theorem centre_eq (x : Binary64) :
    ((interval x).centre : ℚ) * 2 ^ (interval x).unit = x.abs := by
  rw [two_zpow_unit, Binary64.abs, interval]
  push_cast
  ring

theorem upper_eq (x : Binary64) :
    ((interval x).upper : ℚ) * 2 ^ (interval x).unit =
      (x.mantissa + 1 / 2) * 2 ^ x.exponent := by
  rw [two_zpow_unit, interval]
  push_cast
  ring

theorem le_lower (x : Binary64) :
    (x.mantissa - 1 / 2) * 2 ^ x.exponent ≤
      ((interval x).lower : ℚ) * 2 ^ (interval x).unit := by
  have hpos : (0 : ℚ) ≤ 2 ^ x.exponent / 4 := by positivity
  have hnat : 4 * x.mantissa ≤ (interval x).lower + 2 := by
    simp only [interval]
    split <;> omega
  have hcast : (4 * x.mantissa : ℚ) ≤ (interval x).lower + 2 := by exact_mod_cast hnat
  calc ((x.mantissa : ℚ) - 1 / 2) * 2 ^ x.exponent
      = (4 * x.mantissa - 2) * (2 ^ x.exponent / 4) := by ring
    _ ≤ (interval x).lower * (2 ^ x.exponent / 4) :=
        mul_le_mul_of_nonneg_right (by linarith) hpos
    _ = (interval x).lower * 2 ^ (interval x).unit := by rw [two_zpow_unit]

/-! ### Powers of ten and of two -/

theorem ten_pow_le_two_pow {n : Nat} (h : n ≤ 1100) :
    10 ^ (n * 30103 / 100000) ≤ 2 ^ n * 10 ^ 3 := by
  have hten : 10 ^ (n * 30103 / 100000) ≤ (10 ^ 3) ^ (n / 10) * 10 ^ 3 := by
    rw [← pow_mul, ← pow_add]
    exact Nat.pow_le_pow_right (by decide) (by omega)
  have hbase : (10 ^ 3) ^ (n / 10) ≤ (2 ^ 10) ^ (n / 10) := Nat.pow_le_pow_left (by decide) _
  have htwo : (2 ^ 10) ^ (n / 10) ≤ 2 ^ n := by
    rw [← pow_mul]
    exact Nat.pow_le_pow_right (by decide) (by omega)
  exact hten.trans (Nat.mul_le_mul_right _ (hbase.trans htwo))

theorem two_pow_le_ten_pow {n : Nat} (h : n ≤ 1100) :
    2 ^ n ≤ 10 ^ (n * 30103 / 100000 + 3) := by
  have hsmall : ∀ s < 93, 2 ^ s ≤ 10 ^ (s * 30103 / 100000 + 1) := by decide +kernel
  have hbase : (2 ^ 93) ^ (n / 93) ≤ (10 ^ 28) ^ (n / 93) := Nat.pow_le_pow_left (by decide) _
  calc 2 ^ n = (2 ^ 93) ^ (n / 93) * 2 ^ (n % 93) := by
        rw [← pow_mul, ← pow_add]
        congr 1
        omega
    _ ≤ (10 ^ 28) ^ (n / 93) * 10 ^ (n % 93 * 30103 / 100000 + 1) :=
        Nat.mul_le_mul hbase (hsmall _ (Nat.mod_lt _ (by decide)))
    _ = 10 ^ (28 * (n / 93) + (n % 93 * 30103 / 100000 + 1)) := by rw [← pow_mul, ← pow_add]
    _ ≤ 10 ^ (n * 30103 / 100000 + 3) := Nat.pow_le_pow_right (by decide) (by omega)

/-- The logarithm of two by which the search starts is near enough for all exponents. -/
theorem ten_zpow_le {e : Int} (hlo : -1100 ≤ e) (hhi : e ≤ 1100) :
    (10 : ℚ) ^ (e * 30103 / 100000) ≤ 2 ^ e * 10 ^ 3 := by
  rcases Int.le_total 0 e with h | h
  · obtain ⟨n, rfl⟩ := Int.eq_ofNat_of_zero_le h
    have hnat := ten_pow_le_two_pow (n := n) (by omega)
    have hdiv : (n : Int) * 30103 / 100000 = (n * 30103 / 100000 : Nat) := by omega
    rw [hdiv, zpow_natCast, zpow_natCast]
    exact_mod_cast hnat
  · obtain ⟨n, hn⟩ := Int.eq_ofNat_of_zero_le (Int.neg_nonneg.2 h)
    obtain rfl : e = -(n : Int) := by omega
    have hnat := two_pow_le_ten_pow (n := n) (by omega)
    have hdiv : -(n : Int) * 30103 / 100000 ≤ -((n * 30103 / 100000 : Nat) : Int) := by omega
    refine (zpow_le_zpow_right₀ (by norm_num) hdiv).trans ?_
    have htwo : (0 : ℚ) < 2 ^ n := by positivity
    have hten : (0 : ℚ) < 10 ^ (n * 30103 / 100000) := by positivity
    have hcast : (2 : ℚ) ^ n ≤ 10 ^ (n * 30103 / 100000 + 3) := by exact_mod_cast hnat
    rw [zpow_neg, zpow_neg, zpow_natCast, zpow_natCast, inv_le_iff_one_le_mul₀ hten, mul_assoc,
      ← pow_add, ← inv_mul_cancel₀ htwo.ne', Nat.add_comm 3]
    exact mul_le_mul_of_nonneg_left hcast (inv_nonneg.2 htwo.le)

/-! ### The shortest decimal -/

theorem log2_mantissa_le (x : Binary64) : x.mantissa.log2 ≤ 52 := by
  rcases Nat.eq_zero_or_pos x.mantissa with h | h
  · rw [h]
    decide
  · exact Nat.le_of_lt_succ ((Nat.log2_lt h.ne').2 x.mantissa_lt)

/-- The last grid of the search is finer than half a last place. -/
theorem last_grid_lt (x : Binary64) : (10 : ℚ) ^ (startingPower x - 23) < 2 ^ x.exponent / 2 := by
  have hlog := log2_mantissa_le x
  have hlo := x.le_exponent
  have hhi := x.exponent_le
  have hpow := ten_zpow_le (e := x.exponent + x.mantissa.log2 + 1) (by omega) (by omega)
  have hten : (10 : ℚ) ^ (startingPower x - 23) =
      10 ^ ((x.exponent + x.mantissa.log2 + 1) * 30103 / 100000) * 10 ^ (-21 : Int) := by
    rw [← zpow_add₀ (by norm_num), startingPower]
    congr 1
    omega
  have htwo : (2 : ℚ) ^ (x.exponent + x.mantissa.log2 + 1) ≤ 2 ^ x.exponent * 2 ^ (53 : Int) := by
    rw [← zpow_add₀ (by norm_num)]
    exact zpow_le_zpow_right₀ (by norm_num) (by omega)
  have hpos : (0 : ℚ) < 2 ^ x.exponent := by positivity
  rw [hten]
  calc _ ≤ (2 : ℚ) ^ x.exponent * 2 ^ (53 : Int) * 10 ^ 3 * 10 ^ (-21 : Int) := by
        gcongr
        exact hpow.trans (by gcongr)
    _ = 2 ^ x.exponent * (2 ^ (53 : Int) * 10 ^ 3 * 10 ^ (-21 : Int)) := by ring
    _ < 2 ^ x.exponent * (1 / 2) := by
        gcongr
        norm_num
    _ = 2 ^ x.exponent / 2 := by ring

/-- The search ends at a point of the interval, and coarser grids have none. -/
theorem shortest_eq (h : x.mantissa ≠ 0) :
    ∃ d k, shortest x = ⟨d, k⟩ ∧ (interval x).pointOn? k = some d ∧
      ∀ j, k < j → j ≤ startingPower x → (interval x).pointOn? j = none := by
  rw [shortest, if_neg (by simpa [Binary64.isZero] using h)]
  refine Interval.search_eq _ _ ⟨23, by decide, ?_⟩
  refine Interval.exists_pointOn?_of_lt (lower_lt_centre h) ?_
  have hlast := last_grid_lt x
  rw [centre_eq, upper_eq, Binary64.abs]
  push_cast
  linarith

/-- The shortest decimal is at most half a last place away. -/
theorem value_shortest_bounds (h : x.mantissa ≠ 0) :
    (x.mantissa - 1 / 2) * 2 ^ x.exponent ≤ (shortest x).value ∧
      (shortest x).value ≤ (x.mantissa + 1 / 2) * 2 ^ x.exponent := by
  obtain ⟨d, k, heq, hpoint, -⟩ := shortest_eq h
  obtain ⟨hlower, hupper⟩ := Interval.bounds_of_hasPoint (Interval.hasPoint_of_pointOn? hpoint)
  rw [heq]
  rw [upper_eq] at hupper
  exact ⟨(le_lower x).trans hlower, hupper⟩

/-- The number itself lies between the same bounds. -/
theorem abs_bounds (x : Binary64) :
    (x.mantissa - 1 / 2) * 2 ^ x.exponent ≤ x.abs ∧
      x.abs ≤ (x.mantissa + 1 / 2) * 2 ^ x.exponent := by
  have htwo : (0 : ℚ) < 2 ^ x.exponent := by positivity
  exact ⟨mul_le_mul_of_nonneg_right (by linarith) htwo.le,
    mul_le_mul_of_nonneg_right (by linarith) htwo.le⟩

/-! ### The integer part -/

theorem abs_mul_den (x : Binary64) :
    x.abs * (2 : ℚ) ^ (-x.exponent).toNat = (x.mantissa * 2 ^ x.exponent.toNat : Nat) := by
  rw [Binary64.abs]
  push_cast
  rw [pow_toNat (a := 2) (by norm_num) x.exponent]
  ring

theorem whole_bounds (x : Binary64) : (x.whole : ℚ) ≤ x.abs ∧ x.abs < x.whole + 1 := by
  have hden : 0 < 2 ^ (-x.exponent).toNat := Nat.pow_pos (by decide)
  have hden' : (0 : ℚ) < 2 ^ (-x.exponent).toNat := by positivity
  have hwhole : x.whole = x.mantissa * 2 ^ x.exponent.toNat / 2 ^ (-x.exponent).toNat := rfl
  have hle := Nat.div_mul_le_self (x.mantissa * 2 ^ x.exponent.toNat) (2 ^ (-x.exponent).toNat)
  have hlt := (Nat.div_lt_iff_lt_mul hden).1
    (Nat.lt_succ_self (x.mantissa * 2 ^ x.exponent.toNat / 2 ^ (-x.exponent).toNat))
  rw [← hwhole] at hle hlt
  rw [← mul_le_mul_iff_left₀ hden', ← mul_lt_mul_iff_left₀ hden', abs_mul_den]
  exact ⟨by exact_mod_cast hle, by exact_mod_cast hlt⟩

theorem startingPower_nonneg (h : 1 ≤ x.abs) : 0 ≤ startingPower x := by
  have hlog : 0 < x.exponent + x.mantissa.log2 + 1 := by
    by_contra hle
    have hmantissa : (x.mantissa : ℚ) < 2 ^ ((x.mantissa.log2 : Int) + 1) := by
      have hlt : x.mantissa < 2 ^ (x.mantissa.log2 + 1) := Nat.lt_log2_self
      exact_mod_cast hlt
    have hpos : (0 : ℚ) < 2 ^ x.exponent := by positivity
    have hone : (2 : ℚ) ^ ((x.mantissa.log2 : Int) + 1) * 2 ^ x.exponent ≤ 1 := by
      rw [← zpow_add₀ (by norm_num)]
      exact zpow_le_one_of_nonpos₀ (by norm_num) (by omega)
    have hlt := mul_lt_mul_of_pos_right hmantissa hpos
    rw [Binary64.abs] at h
    linarith
  rw [startingPower]
  omega

/-- An integer below `2 ^ 54` is half a last place away from no other multiple of ten: that is less
than one, or it is one and the integer is even. -/
theorem multiple_eq_of_near {n w : Nat} (he : x.exponent ≤ 1) (hn : x.abs = n)
    (hlower : (x.mantissa - 1 / 2) * 2 ^ x.exponent ≤ ((10 * w : Nat) : ℚ))
    (hupper : ((10 * w : Nat) : ℚ) ≤ (x.mantissa + 1 / 2) * 2 ^ x.exponent) : 10 * w = n := by
  rw [Binary64.abs] at hn
  rcases Int.lt_or_eq_of_le he with he | he
  · have hone : (2 : ℚ) ^ x.exponent ≤ 1 := zpow_le_one_of_nonpos₀ (by norm_num) (by omega)
    have hlt : (n : ℚ) < (10 * w : Nat) + 1 := by linarith
    have hlt' : ((10 * w : Nat) : ℚ) < n + 1 := by linarith
    norm_cast at hlt hlt'
    omega
  · rw [he, zpow_one] at hn hlower hupper
    have heven : ((2 * x.mantissa : Nat) : ℚ) = n := by
      rw [← hn]
      push_cast
      ring
    have hle : (n : ℚ) ≤ (10 * w : Nat) + 1 := by linarith
    have hle' : ((10 * w : Nat) : ℚ) ≤ n + 1 := by linarith
    norm_cast at heven hle hle'
    omega

/-- Up to `2 ^ 54` an integer is its own shortest decimal. -/
theorem value_shortest_of_integer {n : Nat} (h : x.mantissa ≠ 0) (he : x.exponent ≤ 1)
    (hn : x.abs = n) : (shortest x).value = n := by
  have hpos : 1 ≤ x.abs := by
    have habs : 0 < x.abs := by
      have hmantissa : (0 : ℚ) < x.mantissa := by exact_mod_cast Nat.pos_of_ne_zero h
      exact mul_pos hmantissa (by positivity)
    rw [hn] at habs ⊢
    exact_mod_cast habs
  have hunits : (interval x).pointOn? 0 = some n := by
    refine Interval.pointOn?_of_eq (lower_lt_centre h) (centre_lt_upper x) ?_
    rw [centre_eq, hn, zpow_zero, mul_one]
  obtain ⟨d, k, heq, hpoint, hnone⟩ := shortest_eq h
  obtain ⟨hlower, hupper⟩ := value_shortest_bounds h
  rw [heq] at hlower hupper ⊢
  -- the number lies on the grid of the units, so the search ends there or before
  have hk : 0 ≤ k := by
    by_contra hneg
    rw [hnone 0 (by omega) (startingPower_nonneg hpos)] at hunits
    cases hunits
  obtain ⟨j, rfl⟩ := Int.eq_ofNat_of_zero_le hk
  cases j with
  | zero =>
    obtain rfl := Option.some.inj (hpoint.symm.trans hunits)
    simp [value]
  | succ j =>
    have hvalue : value ⟨d, (j + 1 : Nat)⟩ = (10 * (d * 10 ^ j) : Nat) := by
      rw [value, zpow_natCast]
      push_cast
      ring
    rw [hvalue] at hlower hupper ⊢
    exact congrArg Nat.cast (multiple_eq_of_near he hn hlower hupper)

/-- A number that is no integer is at least a whole last place away from the integers around it. -/
theorem places_of_fraction (h : (x.whole : ℚ) < x.abs) :
    ∃ k : Nat, x.exponent = -k ∧ x.whole * 2 ^ k + 1 ≤ x.mantissa ∧
      x.mantissa + 1 ≤ (x.whole + 1) * 2 ^ k := by
  have hscaled := abs_mul_den x
  have hneg : x.exponent < 0 := by
    by_contra hnonneg
    have hwhole : x.whole = x.mantissa * 2 ^ x.exponent.toNat / 2 ^ (-x.exponent).toNat := rfl
    rw [show (-x.exponent).toNat = 0 by omega, pow_zero, mul_one] at hscaled
    rw [show (-x.exponent).toNat = 0 by omega, pow_zero, Nat.div_one] at hwhole
    rw [hscaled, hwhole] at h
    exact lt_irrefl _ h
  obtain ⟨k, hk⟩ := Int.eq_ofNat_of_zero_le (Int.neg_nonneg.2 hneg.le)
  have hden : (0 : ℚ) < 2 ^ k := by positivity
  rw [hk, Int.toNat_natCast, show x.exponent.toNat = 0 by omega, pow_zero, Nat.mul_one] at hscaled
  have hlo := mul_lt_mul_of_pos_right h hden
  have hhi := mul_lt_mul_of_pos_right (whole_bounds x).2 hden
  rw [hscaled] at hlo hhi
  exact ⟨k, by omega, by exact_mod_cast hlo, by exact_mod_cast hhi⟩

/-- Up to `2 ^ 54` the shortest decimal has the integer part of the number. -/
theorem whole_value_shortest (h : x.mantissa ≠ 0) (he : x.exponent ≤ 1) :
    (x.whole : ℚ) ≤ (shortest x).value ∧ (shortest x).value < x.whole + 1 := by
  rcases eq_or_lt_of_le (whole_bounds x).1 with heq | hfraction
  · rw [value_shortest_of_integer h he heq.symm]
    exact ⟨le_refl _, lt_add_one _⟩
  · obtain ⟨k, hk, hlo, hhi⟩ := places_of_fraction hfraction
    have hden : (0 : ℚ) < 2 ^ k := by positivity
    have hlo : (x.whole : ℚ) * 2 ^ k + 1 ≤ x.mantissa := by exact_mod_cast hlo
    have hhi : (x.mantissa : ℚ) + 1 ≤ (x.whole + 1) * 2 ^ k := by exact_mod_cast hhi
    obtain ⟨hlower, hupper⟩ := value_shortest_bounds h
    rw [hk, zpow_neg, zpow_natCast, ← div_eq_mul_inv] at hlower hupper
    rw [div_le_iff₀ hden] at hlower
    rw [le_div_iff₀ hden] at hupper
    rw [← mul_le_mul_iff_left₀ hden, ← mul_lt_mul_iff_left₀ hden]
    constructor <;> linarith

/-! ### Bounds -/

theorem digits_shortest_ne_zero (h : x.mantissa ≠ 0) : (shortest x).digits ≠ 0 := by
  intro hzero
  have hmantissa : (1 : ℚ) ≤ x.mantissa := by exact_mod_cast Nat.one_le_iff_ne_zero.2 h
  have htwo : (0 : ℚ) < 2 ^ x.exponent := by positivity
  have hpos : 0 < ((x.mantissa : ℚ) - 1 / 2) * 2 ^ x.exponent :=
    mul_pos (by linarith) htwo
  have hlower := (value_shortest_bounds h).1
  rw [value, hzero, Nat.cast_zero, zero_mul] at hlower
  linarith

theorem le_mantissa (h : x.exponent ≠ -1074) : (2 : ℚ) ^ 52 ≤ x.mantissa := by
  have hfull := x.full.resolve_right h
  exact_mod_cast hfull

/-- From `2 ^ 54` on, a number is above `10 ^ 16` by more than half a last place. -/
theorem le_of_one_lt_exponent (he : 1 < x.exponent) :
    10 ^ (16 : Int) ≤ ((x.mantissa : ℚ) - 1 / 2) * 2 ^ x.exponent := by
  have hmantissa := le_mantissa (x := x) (by omega)
  calc (10 : ℚ) ^ (16 : Int) ≤ (2 ^ 52 - 1 / 2) * 2 ^ (2 : Int) := by norm_num
    _ ≤ ((x.mantissa : ℚ) - 1 / 2) * 2 ^ x.exponent := by
      gcongr
      · linarith
      · norm_num
      · omega

theorem exponent_le_one (h : x.abs < 10 ^ (16 : Int)) : x.exponent ≤ 1 := by
  by_contra he
  exact not_le.2 h ((le_of_one_lt_exponent (not_le.1 he)).trans (abs_bounds x).1)

theorem value_shortest_lt_iff (h : x.mantissa ≠ 0) :
    (shortest x).value < 10 ^ (16 : Int) ↔ x.abs < 10 ^ (16 : Int) := by
  by_cases he : x.exponent ≤ 1
  · have hten : (10 : ℚ) ^ (16 : Int) = (10 ^ 16 : Nat) := by norm_num
    have hwhole {v : ℚ} (hle : (x.whole : ℚ) ≤ v) (hlt : v < x.whole + 1) :
        v < (10 ^ 16 : Nat) ↔ x.whole < 10 ^ 16 := by
      constructor
      · intro hv
        exact_mod_cast hle.trans_lt hv
      · intro hsmall
        refine hlt.trans_le ?_
        exact_mod_cast Nat.succ_le_of_lt hsmall
    obtain ⟨hle, hlt⟩ := whole_value_shortest h he
    obtain ⟨hle', hlt'⟩ := whole_bounds x
    rw [hten, hwhole hle hlt, hwhole hle' hlt']
  · have hbig := le_of_one_lt_exponent (not_le.1 he)
    exact iff_of_false (not_lt.2 (hbig.trans (value_shortest_bounds h).1))
      (not_lt.2 (hbig.trans (abs_bounds x).1))

/-- The shortest decimal depends on the magnitude only. -/
theorem shortest_congr {y : Binary64} (hm : x.mantissa = y.mantissa)
    (he : x.exponent = y.exponent) : shortest x = shortest y := by
  obtain ⟨_, m, e, _, _, _, _⟩ := x
  obtain ⟨_, m', e', _, _, _, _⟩ := y
  obtain rfl : m = m' := hm
  obtain rfl : e = e' := he
  rfl

/-- The number next to `0.00001`, which is written so. -/
theorem shortest_of_hundred_thousandth (hm : x.mantissa = 5902958103587057)
    (he : x.exponent = -69) : shortest x = ⟨1, -5⟩ := by
  have hclosed : shortest ⟨false, 5902958103587057, -69, by decide, by decide, by decide,
      .inl (by decide)⟩ = ⟨1, -5⟩ := by decide +kernel
  exact (shortest_congr hm he).trans hclosed

/-- Below `2 ^ (-17)`, a number is below `0.00001` by more than half a last place. -/
theorem lt_of_exponent_lt (he : x.exponent < -69) :
    ((x.mantissa : ℚ) + 1 / 2) * 2 ^ x.exponent < 10 ^ (-5 : Int) := by
  have hmantissa : (x.mantissa : ℚ) + 1 ≤ 2 ^ 53 := by exact_mod_cast x.mantissa_lt
  calc ((x.mantissa : ℚ) + 1 / 2) * 2 ^ x.exponent ≤ 2 ^ 53 * 2 ^ (-70 : Int) := by
        gcongr
        · linarith
        · norm_num
        · omega
    _ < 10 ^ (-5 : Int) := by norm_num

/-- From `2 ^ (-16)` on, a number is above `0.00001` by more than half a last place. -/
theorem le_of_lt_exponent (he : -69 < x.exponent) :
    10 ^ (-5 : Int) ≤ ((x.mantissa : ℚ) - 1 / 2) * 2 ^ x.exponent := by
  have hmantissa := le_mantissa (x := x) (by omega)
  calc (10 : ℚ) ^ (-5 : Int) ≤ (2 ^ 52 - 1 / 2) * 2 ^ (-68 : Int) := by norm_num
    _ ≤ ((x.mantissa : ℚ) - 1 / 2) * 2 ^ x.exponent := by
      gcongr
      · linarith
      · norm_num
      · omega

theorem le_value_shortest_iff (h : x.mantissa ≠ 0) :
    10 ^ (-5 : Int) ≤ (shortest x).value ↔ 10 ^ (-5 : Int) ≤ x.abs := by
  obtain ⟨hlower, hupper⟩ := value_shortest_bounds h
  obtain ⟨hlower', hupper'⟩ := abs_bounds x
  have hbelow (hlt : ((x.mantissa : ℚ) + 1 / 2) * 2 ^ x.exponent < 10 ^ (-5 : Int)) :
      10 ^ (-5 : Int) ≤ (shortest x).value ↔ 10 ^ (-5 : Int) ≤ x.abs :=
    iff_of_false (not_le.2 (hupper.trans_lt hlt)) (not_le.2 (hupper'.trans_lt hlt))
  have habove (hle : 10 ^ (-5 : Int) ≤ ((x.mantissa : ℚ) - 1 / 2) * 2 ^ x.exponent) :
      10 ^ (-5 : Int) ≤ (shortest x).value ↔ 10 ^ (-5 : Int) ≤ x.abs :=
    iff_of_true (hle.trans hlower) (hle.trans hlower')
  rcases lt_trichotomy x.exponent (-69) with he | he | he
  · exact hbelow (lt_of_exponent_lt he)
  · -- the bound lies between two numbers, and the shortest decimal of the upper one is the bound
    rw [he] at hbelow habove
    rcases lt_trichotomy x.mantissa 5902958103587057 with hm | hm | hm
    · have hm : (x.mantissa : ℚ) + 1 ≤ 5902958103587057 := by exact_mod_cast hm
      refine hbelow ?_
      calc ((x.mantissa : ℚ) + 1 / 2) * 2 ^ (-69 : Int)
          ≤ (5902958103587057 - 1 / 2) * 2 ^ (-69 : Int) := by
            gcongr
            linarith
        _ < 10 ^ (-5 : Int) := by norm_num
    · rw [shortest_of_hundred_thousandth hm he, value, Binary64.abs, hm, he]
      norm_num
    · have hm : (5902958103587057 : ℚ) + 1 ≤ x.mantissa := by exact_mod_cast hm
      refine habove ?_
      calc (10 : ℚ) ^ (-5 : Int) ≤ (5902958103587057 + 1 / 2) * 2 ^ (-69 : Int) := by norm_num
        _ ≤ ((x.mantissa : ℚ) - 1 / 2) * 2 ^ (-69 : Int) := by
          gcongr
          linarith
  · exact habove (le_of_lt_exponent he)

end

/-! ### Where the point stands -/

/-- The position of the point behind the first digit of a decimal. -/
def point (d : Decimal) : Int := d.exponent + (Nat.toDigits 10 d.digits).length

/-- The position of the point gives the size of a decimal. -/
theorem lt_point_iff {d : Decimal} (h : d.digits ≠ 0) (p : Int) :
    p < d.point ↔ 10 ^ p ≤ d.value := by
  have hpos : 0 < (Nat.toDigits 10 d.digits).length := Nat.length_toDigits_pos
  have hlt : d.digits < 10 ^ (Nat.toDigits 10 d.digits).length :=
    (Nat.length_toDigits_le_iff (by decide) hpos).1 (le_refl _)
  have hle : 10 ^ ((Nat.toDigits 10 d.digits).length - 1) ≤ d.digits := by
    by_contra hsmall
    rcases Nat.eq_zero_or_pos ((Nat.toDigits 10 d.digits).length - 1) with hone | hmore
    · rw [hone] at hsmall
      omega
    · have := (Nat.length_toDigits_le_iff (by decide) hmore).2 (not_le.1 hsmall)
      omega
  obtain ⟨k, hk⟩ : ∃ k, (Nat.toDigits 10 d.digits).length = k + 1 :=
    ⟨_, (Nat.succ_pred_eq_of_pos hpos).symm⟩
  rw [hk] at hlt hle
  rw [Nat.add_sub_cancel] at hle
  have hpoint : d.point = k + 1 + d.exponent := by
    rw [point, hk]
    push_cast
    omega
  have hten : (0 : ℚ) < 10 ^ d.exponent := by positivity
  have hlower : (10 : ℚ) ^ (k + d.exponent : Int) ≤ d.value := by
    rw [zpow_add₀ (by norm_num), zpow_natCast, value]
    exact mul_le_mul_of_nonneg_right (by exact_mod_cast hle) hten.le
  have hupper : d.value < (10 : ℚ) ^ (k + 1 + d.exponent : Int) := by
    have hcast : (d.digits : ℚ) < 10 ^ (k + 1 : Int) := by exact_mod_cast hlt
    rw [zpow_add₀ (by norm_num), value]
    exact mul_lt_mul_of_pos_right hcast hten
  rw [hpoint]
  constructor
  · intro hp
    exact (zpow_le_zpow_right₀ (by norm_num) (by omega)).trans hlower
  · intro hp
    by_contra hge
    have hpow : (10 : ℚ) ^ (k + 1 + d.exponent : Int) ≤ 10 ^ p :=
      zpow_le_zpow_right₀ (by norm_num) (by omega)
    linarith

/-- Where the point of the shortest decimal stands can be told from the number. -/
theorem point_shortest_iff {x : Binary64} (h : x.mantissa ≠ 0) :
    -4 ≤ (shortest x).point ∧ (shortest x).point ≤ 16 ↔
      10 ^ (-5 : Int) ≤ x.abs ∧ x.abs < 10 ^ (16 : Int) := by
  have hdigits := digits_shortest_ne_zero h
  rw [← le_value_shortest_iff h, ← value_shortest_lt_iff h, ← not_le, ← lt_point_iff hdigits,
    ← lt_point_iff hdigits, not_lt]
  rfl

end Decimal

end ListQuery
