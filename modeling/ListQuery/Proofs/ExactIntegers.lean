import ListQuery.Coercion.Predicate
import ListQuery.Proofs.IntegerText
import Mathlib.Tactic.Linarith
import Mathlib.Tactic.Ring

/-!
# Integers in texts

A JSON number that is an integer of 64 bits is kept as it is. An integer in a string is read as a
binary64 number first, and made an integer again if it is below `2 ^ 63`. Of its binary digits 53
are kept on the way: the string gives the nearest natural number of that kind (`Binary64.nearest`),
with the sign in front. So the string gives the same number as the JSON number exactly if 53 binary
digits are enough for it, and if it is not `-2 ^ 63`, which the test of the bounds leaves out
(`Json.toNumber?_integerText_iff`).
-/

namespace ListQuery

namespace Binary64

variable {n d : Nat}

/-! ### Rounding -/

theorem div_le_roundHalfEven (n d : Nat) :
    n / d ≤ roundHalfEven n d ∧ roundHalfEven n d ≤ n / d + 1 := by
  simp only [roundHalfEven]
  split
  · omega
  · split
    · omega
    · split <;> omega

theorem roundHalfEven_mul (m : Nat) (hd : 0 < d) : roundHalfEven (m * d) d = m := by
  simp only [roundHalfEven, Nat.mul_mod_left, Nat.mul_div_cancel _ hd]
  rw [if_pos (by omega)]

theorem roundHalfEven_mul_eq_iff (hd : 0 < d) : roundHalfEven n d * d = n ↔ d ∣ n := by
  constructor
  · intro h
    exact ⟨_, (Nat.mul_comm _ _ ▸ h).symm⟩
  · rintro ⟨m, rfl⟩
    rw [Nat.mul_comm d m, roundHalfEven_mul m hd]

/-- The distance of the numbers of the format at `n`, if it is not a fraction. -/
def spacing (n : Nat) : Nat := 2 ^ (n.log2 - 52)

/-- The natural number of 53 binary digits that is nearest to `n`. -/
def nearest (n : Nat) : Nat := roundHalfEven n (spacing n) * spacing n

theorem spacing_pos (n : Nat) : 0 < spacing n := Nat.pow_pos (by decide)

/-- 53 binary digits are enough for a number. -/
def Short (n : Nat) : Prop := ∃ m e, m < 2 ^ 53 ∧ n = m * 2 ^ e

theorem nearest_eq_self_iff : nearest n = n ↔ Short n := by
  rw [nearest, roundHalfEven_mul_eq_iff (spacing_pos n)]
  have hlt : n < 2 ^ (n.log2 + 1) := Nat.lt_log2_self
  constructor
  · rintro ⟨m, hm⟩
    refine ⟨m, n.log2 - 52, ?_, by rw [Nat.mul_comm]; exact hm⟩
    have hle : 2 ^ (n.log2 + 1) ≤ spacing n * 2 ^ 53 := by
      rw [spacing, ← Nat.pow_add]
      exact Nat.pow_le_pow_right (by decide) (by omega)
    exact Nat.lt_of_mul_lt_mul_left (Nat.lt_of_lt_of_le (hm ▸ hlt) hle)
  · rintro ⟨m, e, hm, hn⟩
    by_cases hzero : n = 0
    · rw [hzero]
      exact Nat.dvd_zero _
    have hlog : n.log2 - 52 ≤ e := by
      by_contra he
      have hself := Nat.log2_self_le hzero
      have hpow : 2 ^ (53 + e) ≤ 2 ^ n.log2 := Nat.pow_le_pow_right (by decide) (by omega)
      have hsmall : m * 2 ^ e < 2 ^ 53 * 2 ^ e :=
        Nat.mul_lt_mul_of_pos_right hm (Nat.pow_pos (by decide))
      rw [← Nat.pow_add, ← hn] at hsmall
      omega
    have hdvd : spacing n ∣ m * 2 ^ e := Nat.dvd_mul_left_of_dvd (Nat.pow_dvd_pow 2 hlog) m
    rwa [← hn] at hdvd

/-- With the exponent of `n` a mantissa of 53 bits stands in front. -/
theorem scaled_bounds (hn : n ≠ 0) :
    2 ^ 52 * 2 ^ (n.log2 - 52) ≤ n * 2 ^ (52 - n.log2) ∧
      n * 2 ^ (52 - n.log2) < 2 ^ 53 * 2 ^ (n.log2 - 52) := by
  have hlo : 52 + (n.log2 - 52) = n.log2 + (52 - n.log2) := by omega
  have hhi : 53 + (n.log2 - 52) = n.log2 + 1 + (52 - n.log2) := by omega
  rw [← Nat.pow_add, ← Nat.pow_add, hlo, hhi, Nat.pow_add 2 n.log2, Nat.pow_add 2 (n.log2 + 1)]
  exact ⟨Nat.mul_le_mul_right _ (Nat.log2_self_le hn),
    Nat.mul_lt_mul_of_pos_right Nat.lt_log2_self (Nat.pow_pos (by decide))⟩

theorem exponentOf_one (hn : n ≠ 0) : exponentOf n 1 = (n.log2 : Int) - 52 := by
  have hup : ((n.log2 : Int) - 52).toNat = n.log2 - 52 := by omega
  have hdown : (-((n.log2 : Int) - 52)).toNat = 52 - n.log2 := by omega
  have hle := (scaled_bounds hn).1
  simp only [exponentOf, scaled, show Nat.log2 1 = 0 from rfl, Int.natCast_zero, Int.sub_zero, hup,
    hdown, Nat.one_mul, Nat.pow_eq]
  rw [if_neg (by omega)]
  omega

/-- The mantissa in front of the exponent of `n`, which has no bits behind the point to lose. -/
theorem roundHalfEven_scaled (n : Nat) :
    roundHalfEven (n * 2 ^ (52 - n.log2)) (2 ^ (n.log2 - 52)) =
      roundHalfEven n (spacing n) * 2 ^ (52 - n.log2) := by
  by_cases h : n.log2 ≤ 52
  · have hone (k : Nat) : roundHalfEven k 1 = k := by
      simpa using roundHalfEven_mul k (d := 1) (by decide)
    rw [spacing, Nat.sub_eq_zero_of_le h, Nat.pow_zero, hone, hone]
  · rw [Nat.sub_eq_zero_of_le (by omega : 52 ≤ n.log2), Nat.pow_zero, Nat.mul_one, Nat.mul_one,
      spacing]

/-- A mantissa that needs one more bit is halved, and the exponent is one more. -/
theorem mul_two_pow_of_carry {log m : Nat} (h : 2 ^ 53 = m * 2 ^ (52 - log)) :
    2 ^ 52 * 2 ^ ((log : Int) - 52 + 1).toNat =
      m * 2 ^ (log - 52) * 2 ^ (-((log : Int) - 52 + 1)).toNat := by
  rcases Nat.lt_or_ge log 52 with hlog | hlog
  · obtain ⟨k, hk⟩ : ∃ k, 52 - log = k + 1 := ⟨51 - log, by omega⟩
    rw [show ((log : Int) - 52 + 1).toNat = 0 by omega,
      show (-((log : Int) - 52 + 1)).toNat = k by omega, Nat.sub_eq_zero_of_le hlog.le,
      Nat.pow_zero, Nat.mul_one, Nat.mul_one]
    rw [hk, Nat.pow_succ 2 k, ← Nat.mul_assoc] at h
    omega
  · rw [Nat.sub_eq_zero_of_le hlog, Nat.pow_zero, Nat.mul_one] at h
    rw [show ((log : Int) - 52 + 1).toNat = log - 52 + 1 by omega,
      show (-((log : Int) - 52 + 1)).toNat = 0 by omega, ← h]
    ring

/-- An integer is rounded to an integer. -/
theorem ofRatio?_one (negative : Bool) (hn : n ≠ 0) (hlog : n.log2 < 1000) :
    ∃ x, ofRatio? negative n 1 = some x ∧ x.negative = negative ∧
      x.mantissa * 2 ^ x.exponent.toNat = nearest n * 2 ^ (-x.exponent).toNat := by
  have hup : ((n.log2 : Int) - 52).toNat = n.log2 - 52 := by omega
  have hdown : (-((n.log2 : Int) - 52)).toNat = 52 - n.log2 := by omega
  have hpos : 0 < 2 ^ (n.log2 - 52) := Nat.pow_pos (by decide)
  obtain ⟨hlo, hhi⟩ := scaled_bounds hn
  obtain ⟨hdown', hup'⟩ := div_le_roundHalfEven (n * 2 ^ (52 - n.log2)) (2 ^ (n.log2 - 52))
  have hlo := (Nat.le_div_iff_mul_le hpos).2 hlo
  have hhi := (Nat.div_lt_iff_lt_mul hpos).2 hhi
  have hm := roundHalfEven_scaled n
  simp only [ofRatio?, if_neg hn, exponentOf_one hn, scaled, hup, hdown, Nat.one_mul, Nat.pow_eq]
  generalize roundHalfEven (n * 2 ^ (52 - n.log2)) (2 ^ (n.log2 - 52)) = m at hm hdown' hup' ⊢
  split
  case isTrue hcarry =>
    refine ⟨⟨negative, Nat.pow 2 52, n.log2 - 52 + 1, by decide, by omega, by omega,
      .inl (Nat.le_refl _)⟩, ofParts?_eq_some_iff.2 ⟨rfl, rfl, rfl⟩, rfl, ?_⟩
    exact mul_two_pow_of_carry (hcarry ▸ hm)
  case isFalse hcarry =>
    refine ⟨⟨negative, m, n.log2 - 52, by rw [Nat.pow_eq]; omega, by omega, by omega,
      .inl (by rw [Nat.pow_eq]; omega)⟩, ofParts?_eq_some_iff.2 ⟨rfl, rfl, rfl⟩, rfl, ?_⟩
    simp only [hup, hdown]
    rw [hm, nearest, spacing]
    ring

theorem truncate_of_magnitude {x : Binary64} {k : Nat}
    (h : x.mantissa * 2 ^ x.exponent.toNat = k * 2 ^ (-x.exponent).toNat) :
    x.isIntegral = true ∧ x.truncate = if x.negative then -(k : Int) else k := by
  have hpos : 0 < 2 ^ (-x.exponent).toNat := Nat.pow_pos (by decide)
  simp only [isIntegral, truncate, magnitude, Nat.pow_eq, h, Nat.mul_mod_left,
    Nat.mul_div_cancel _ hpos, beq_self_eq_true, true_and]

theorem sign_mul_nearest_iff {z : Int} : z.sign * nearest z.natAbs = z ↔ Short z.natAbs := by
  rw [← nearest_eq_self_iff]
  rcases Int.lt_trichotomy z 0 with h | rfl | h
  · rw [Int.sign_eq_neg_one_of_neg h]
    omega
  · decide
  · rw [Int.sign_eq_one_of_pos h]
    omega

end Binary64

namespace Json

/-! ### Reading an integer -/

theorem decimalOf?_digits (negative : Bool) (n : Nat) :
    decimalOf? negative (Nat.toDigits 10 n) = Binary64.ofDecimal? negative n 0 := by
  have hall : ∀ c ∈ Nat.toDigits 10 n, c.isDigit = true := fun _ => isDigit_of_mem_digits
  have htake : (Nat.toDigits 10 n).takeWhile Char.isDigit = Nat.toDigits 10 n :=
    List.takeWhile_eq_self_iff.2 hall
  have hdrop : (Nat.toDigits 10 n).dropWhile Char.isDigit = [] := List.dropWhile_eq_nil_iff.2 hall
  have hne : (Nat.toDigits 10 n).isEmpty = false := List.isEmpty_eq_false_iff.2 Nat.toDigits_ne_nil
  simp only [decimalOf?, htake, hdrop, hne, List.append_nil, Nat.ofDigitChars_ten_toDigits]
  rfl

theorem ofDecimal?_integer (negative : Bool) {n : Nat} (hn : n < 2 ^ 64) :
    ∃ x, Binary64.ofDecimal? negative n 0 = some x ∧ x.isIntegral = true ∧
      x.truncate = if negative then -(Binary64.nearest n : Int) else Binary64.nearest n := by
  by_cases hzero : n = 0
  · refine ⟨.zero negative, by rw [Binary64.ofDecimal?, if_pos hzero], ?_⟩
    rw [hzero]
    exact Binary64.truncate_of_magnitude (x := .zero negative)
      ((Nat.zero_mul _).trans (Nat.zero_mul _).symm)
  · have hlog : n.log2 < 64 := (Nat.log2_lt hzero).2 hn
    obtain ⟨x, hx, rfl, hmagnitude⟩ := Binary64.ofRatio?_one negative hzero (by omega)
    refine ⟨x, ?_, Binary64.truncate_of_magnitude hmagnitude⟩
    rw [Binary64.ofDecimal?, if_neg hzero, if_neg (by decide), if_neg (by omega)]
    exact (congrArg (fun k => Binary64.ofRatio? x.negative k 1) (Nat.mul_one n)).trans hx

/-- An integer in a string, blanks around it, is read as the nearest one of 53 binary digits. -/
theorem numberOfString?_integerText {z : Int} (hz : z.natAbs < 2 ^ 64) {text : String}
    {before after : List Char} (htext : text.toList = before ++ (integerText z ++ after))
    (hbefore : ∀ c ∈ before, Text.isBlank c = true) (hafter : ∀ c ∈ after, Text.isBlank c = true) :
    ∃ x, numberOfString? text = some x ∧ x.isIntegral = true ∧
      x.truncate = z.sign * Binary64.nearest z.natAbs := by
  obtain ⟨x, hx, hintegral, htruncate⟩ := ofDecimal?_integer (decide (z < 0)) hz
  refine ⟨x, ?_, hintegral, htruncate.trans ?_⟩
  · rw [numberOfString?, htext,
      Text.trim_append hbefore (Text.not_blank_integerText z) hafter, Text.splitSign_integerText]
    exact (decimalOf?_digits _ _).trans hx
  · rcases Int.lt_trichotomy z 0 with h | rfl | h
    · rw [if_pos (decide_eq_true h), Int.sign_eq_neg_one_of_neg h, Int.neg_one_mul]
    · rfl
    · rw [if_neg (by simpa using Int.le_of_lt h), Int.sign_eq_one_of_pos h, Int.one_mul]

theorem ofReal_eq_ofInteger_iff {x : Binary64} (h : x.isIntegral = true) {n : JsonInteger} :
    ofReal x = .ofInteger n ↔
      x.truncate = n.val ∧ -9223372036854775808 < n.val ∧ n.val < 9223372036854775808 := by
  rw [ofReal, if_pos h]
  split
  case isTrue hbounds =>
    rw [ofInteger, ofInteger, number.injEq, JsonNumber.integer.injEq, Bounded.ext_iff]
    refine ⟨fun htruncate => ?_, fun htruncate => htruncate.1⟩
    exact ⟨htruncate, htruncate ▸ hbounds⟩
  case isFalse hbounds =>
    constructor
    · intro hreal
      cases hreal
    · rintro ⟨htruncate, hlo, hhi⟩
      exact absurd (htruncate ▸ ⟨hlo, hhi⟩) hbounds

/-! ### Strings and numbers -/

/-- **An integer in a string**, with blanks around it, gives the number that the JSON number gives,
which is the integer, exactly if 53 binary digits are enough for it and it is not the least integer
of 64 bits. The same goes for filters by the string and by the number on a field of numbers. -/
theorem toNumber?_integerText_iff (n : Signed64) {text : String} {before after : List Char}
    (htext : text.toList = before ++ (integerText n.val ++ after))
    (hbefore : ∀ c ∈ before, Text.isBlank c = true) (hafter : ∀ c ∈ after, Text.isBlank c = true) :
    (Json.ofInteger n.toJsonInteger).toNumber? = some (.ofInteger n.toJsonInteger) ∧
    ((Json.string text).toNumber? = some (.ofInteger n.toJsonInteger) ↔
      n.val ≠ -9223372036854775808 ∧ Binary64.Short n.val.natAbs) ∧
    ∀ h : TypeHandler, h.type = .number → h.custom = none →
      ((Predicate.equals (.string text)).process (some h) =
          (Predicate.equals (.ofInteger n.toJsonInteger)).process (some h) ↔
        n.val ≠ -9223372036854775808 ∧ Binary64.Short n.val.natAbs) := by
  have hlo := n.lo_le
  have hhi := n.le_hi
  obtain ⟨x, hx, hintegral, htruncate⟩ :=
    numberOfString?_integerText (z := n.val) (by omega) htext hbefore hafter
  have hexact : (Json.string text).toNumber? = some (.ofInteger n.toJsonInteger) ↔
      n.val ≠ -9223372036854775808 ∧ Binary64.Short n.val.natAbs := by
    rw [toNumber?, hx, Option.map_some, Option.some_inj, ofReal_eq_ofInteger_iff hintegral,
      htruncate, ← Binary64.sign_mul_nearest_iff]
    have hval : n.toJsonInteger.val = n.val := rfl
    rw [hval]
    constructor <;> rintro ⟨h, h'⟩
    · exact ⟨by omega, h⟩
    · exact ⟨h', by omega, by omega⟩
  refine ⟨rfl, hexact, fun h htype hcustom => ?_⟩
  have hnumber (v : Json) (hv : v.unwrap = v) : (Predicate.equals v).process (some h) =
      v.toNumber?.map (.compare (h.operator.getD .equals)) := by
    simp only [Predicate.process, Predicate.rawValue, hv, TypeHandler.ofRaw, hcustom, htype]
  rw [hnumber _ rfl, hnumber _ rfl, ← hexact]
  refine ⟨fun heq => Option.map_injective ?_ heq, congrArg _⟩
  exact fun a b hab => (Predicate.compare.inj hab).2

/-- Past `2 ^ 53` every second integer keeps its digits. -/
theorem toNumber?_of_even_text :
    (Json.string " -9007199254740994\n").toNumber? =
      some (.ofInteger ⟨-9007199254740994, by decide, by decide⟩) :=
  (@toNumber?_integerText_iff ⟨-9007199254740994, by decide, by decide⟩ " -9007199254740994\n"
    [' '] ['\n'] (by decide +kernel) (List.forall_mem_singleton.2 (by decide))
    (List.forall_mem_singleton.2 (by decide))).2.1.2
    ⟨by decide, 4503599627370497, 1, by decide, by decide⟩

/-- The first integer that loses its last digit, and the least of 64 bits, which becomes a real. -/
theorem odd_text_reads_other_integer :
    (Json.string "9007199254740993").toNumber? =
      some (.ofInteger ⟨9007199254740992, by decide, by decide⟩) ∧
    (Json.ofInteger ⟨9007199254740993, by decide, by decide⟩).toNumber? =
      some (.ofInteger ⟨9007199254740993, by decide, by decide⟩) ∧
    (Json.string "-9223372036854775808").toNumber? =
      some (.number (.real ⟨true, Nat.pow 2 52, 11, by decide, by decide, by decide,
        .inl (by decide)⟩)) := by
  decide +kernel

end Json

end ListQuery
