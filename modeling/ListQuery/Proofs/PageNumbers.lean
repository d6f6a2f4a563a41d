import ListQuery.Proofs.IntegerText
import ListQuery.Proofs.ShortestDecimal

/-!
# Numbers as page parameters

A page parameter that comes as a JSON number is read from the text of the number, and only the
digits that stand in front count (`Leads`). An integer has no other digits. A real of moderate size
is written out, and in front of the point it has its integer part. A very large or a very small one
has an exponent: then the digit that stands first is read alone, whatever the size of the number,
and `1e16` is page one like `1e-7` (`PageParam.ofJson_number_iff`).
-/

namespace ListQuery

open Nat (ofDigitChars)
open Text

/-! ### Digits in front -/

/-- Digits of the value `n` stand in front of a text without blanks, and no digit follows them. -/
def Leads (n : Nat) (cs : List Char) : Prop :=
  ∃ ds rest, cs = ds ++ rest ∧ ds ≠ [] ∧ (∀ c ∈ ds, c.isDigit = true) ∧
    ofDigitChars 10 ds 0 = n ∧ rest.takeWhile Char.isDigit = [] ∧ ∀ c ∈ rest, isBlank c = false

theorem Leads.of_append {ds rest : List Char} (hne : ds ≠ []) (hds : ∀ c ∈ ds, c.isDigit = true)
    (hhead : rest.takeWhile Char.isDigit = []) (hrest : ∀ c ∈ rest, isBlank c = false) :
    Leads (ofDigitChars 10 ds 0) (ds ++ rest) :=
  ⟨ds, rest, rfl, hne, hds, rfl, hhead, hrest⟩

namespace PageParam

/-- A sign and the digits behind it are all that is read. -/
theorem ofString_of_leads {n : Nat} {cs : List Char} (h : Leads n cs) (negative : Bool) :
    ofString (String.ofList ((if negative then ['-'] else []) ++ cs)) =
      .valid (.clamp signedMin_le_signedMax (if negative then -n else n)) := by
  obtain ⟨ds, rest, rfl, hne, hds, rfl, hhead, hrest⟩ := h
  have hblank : ∀ c ∈ ds ++ rest, isBlank c = false := fun c hc =>
    (List.mem_append.1 hc).elim (fun hc => isBlank_of_isDigit (hds c hc)) (hrest c)
  have htake : (ds ++ rest).takeWhile Char.isDigit = ds := by
    rw [List.takeWhile_append_of_pos hds, hhead, List.append_nil]
  obtain ⟨d, ds', hcons⟩ := List.exists_cons_of_ne_nil hne
  have hsign : splitSign ((if negative then ['-'] else []) ++ (ds ++ rest)) =
      (negative, ds ++ rest) := by
    cases negative
    · rw [hcons] at hds ⊢
      exact splitSign_of_isDigit (hds d List.mem_cons_self)
    · rfl
  rw [ofString, String.toList_ofList, trim_eq_self, hsign]
  · simp only [htake]
    rw [hcons]
    rfl
  · cases negative
    · exact hblank
    · exact List.forall_mem_cons.2 ⟨by decide, hblank⟩

end PageParam

/-! ### The text of a decimal -/

namespace Decimal

variable {d : Decimal}

theorem isDigit_of_mem_zeros {n : Int} {c : Char} (h : c ∈ zeros n) : c.isDigit = true := by
  rw [List.eq_of_mem_replicate h]
  rfl

theorem not_blank_of_point {ds : List Char} (h : ∀ c ∈ ds, c.isDigit = true) :
    ∀ c ∈ '.' :: ds, isBlank c = false :=
  List.forall_mem_cons.2 ⟨by decide, fun c hc => isBlank_of_isDigit (h c hc)⟩

/-- Below one, a zero stands in front of the point. -/
theorem leads_below_one (h : d.digits ≠ 0) (hpoint : d.point ≤ 0) :
    ∃ w : Nat, Leads w (['0', '.'] ++ zeros (-d.point) ++ Nat.toDigits 10 d.digits) ∧
      (w : ℚ) ≤ d.value ∧ d.value < w + 1 := by
  have hdigits : ∀ c ∈ zeros (-d.point) ++ Nat.toDigits 10 d.digits, c.isDigit = true :=
    fun _ hc => (List.mem_append.1 hc).elim isDigit_of_mem_zeros isDigit_of_mem_digits
  refine ⟨0, ?_, ?_, ?_⟩
  · exact @Leads.of_append ['0'] _ (by decide) (List.forall_mem_singleton.2 rfl) (by rfl)
      (not_blank_of_point hdigits)
  · rw [value]
    positivity
  · have hsmall := mt (lt_point_iff h 0).2 (not_lt.2 hpoint)
    rw [zpow_zero, not_le] at hsmall
    rw [Nat.cast_zero, zero_add]
    exact hsmall

/-- With no digits behind the point, all digits and the zeros behind them stand in front of it. -/
theorem leads_integer {k : Nat} (hexponent : d.exponent = k) :
    ∃ w : Nat, Leads w (Nat.toDigits 10 d.digits ++ zeros k ++ ['.', '0']) ∧
      (w : ℚ) ≤ d.value ∧ d.value < w + 1 := by
  have hnumber : (10 ^ k * d.digits : Nat) = d.value := by
    rw [value, hexponent, zpow_natCast]
    push_cast
    ring
  have hleads := @Leads.of_append (Nat.toDigits 10 d.digits ++ zeros k) ['.', '0']
    (List.append_ne_nil_of_left_ne_nil Nat.toDigits_ne_nil _)
    (fun _ hc => (List.mem_append.1 hc).elim isDigit_of_mem_digits isDigit_of_mem_zeros) (by rfl)
    (not_blank_of_point (List.forall_mem_singleton.2 rfl))
  rw [Nat.ofDigitChars_append, Nat.ofDigitChars_ten_toDigits, zeros, Int.toNat_natCast,
    Nat.ofDigitChars_replicate_zero] at hleads
  refine ⟨_, hleads, hnumber.le, ?_⟩
  rw [hnumber]
  exact lt_add_one _

/-- With a point among the digits, the last digits are left out. -/
theorem leads_fraction {p q : Nat} (hp : p ≠ 0) (hexponent : d.exponent = -q)
    (hlength : (Nat.toDigits 10 d.digits).length = p + q) :
    ∃ w : Nat, Leads w ((Nat.toDigits 10 d.digits).take p ++
        '.' :: (Nat.toDigits 10 d.digits).drop p) ∧ (w : ℚ) ≤ d.value ∧ d.value < w + 1 := by
  have hne : (Nat.toDigits 10 d.digits).take p ≠ [] := fun hnil =>
    (List.take_eq_nil_iff.1 hnil).elim hp Nat.toDigits_ne_nil
  have hleads := @Leads.of_append ((Nat.toDigits 10 d.digits).take p)
    ('.' :: (Nat.toDigits 10 d.digits).drop p) hne
    (fun _ hc => isDigit_of_mem_digits (List.mem_of_mem_take hc)) (by rfl)
    (not_blank_of_point fun _ hc => isDigit_of_mem_digits (List.mem_of_mem_drop hc))
  rw [ofDigitChars_take fun _ hc => isDigit_of_mem_digits hc, Nat.ofDigitChars_ten_toDigits,
    hlength, Nat.add_sub_cancel_left] at hleads
  have hten : (0 : ℚ) < 10 ^ q := by positivity
  have hscaled : d.value * 10 ^ q = d.digits := by
    rw [value, hexponent, zpow_neg, zpow_natCast, mul_assoc, inv_mul_cancel₀ hten.ne', mul_one]
  refine ⟨_, hleads, ?_, ?_⟩
  · rw [← mul_le_mul_iff_left₀ hten, hscaled]
    exact_mod_cast Nat.div_mul_le_self d.digits (10 ^ q)
  · rw [← mul_lt_mul_iff_left₀ hten, hscaled]
    exact_mod_cast (Nat.div_lt_iff_lt_mul (Nat.pow_pos (by decide))).1
      (Nat.lt_succ_self (d.digits / 10 ^ q))

/-- Written out, a decimal has its integer part in front. -/
theorem leads_positional (h : d.digits ≠ 0) :
    ∃ w : Nat, Leads w (positional (Nat.toDigits 10 d.digits) d.point) ∧
      (w : ℚ) ≤ d.value ∧ d.value < w + 1 := by
  have hpoint : d.point = d.exponent + (Nat.toDigits 10 d.digits).length := rfl
  rw [positional]
  split
  case isTrue hle => exact leads_below_one h hle
  case isFalse hpos =>
    split
    case isTrue hle =>
      obtain ⟨k, hk⟩ := Int.eq_ofNat_of_zero_le (Int.sub_nonneg.2 hle)
      exact hk ▸ leads_integer (by omega)
    case isFalse hlt =>
      obtain ⟨q, hq⟩ := Int.eq_ofNat_of_zero_le (a := -d.exponent) (by omega)
      exact leads_fraction (q := q) (by omega) (by omega) (by omega)

/-- With an exponent, a decimal has its first digit in front. -/
theorem leads_scientific (h : d.digits ≠ 0) (point : Int) :
    ∃ w : Nat, 1 ≤ w ∧ w ≤ 9 ∧ Leads w (scientific (Nat.toDigits 10 d.digits) point) := by
  have hdigits : ∀ c ∈ Nat.toDigits 10 d.digits, c.isDigit = true := fun c hc =>
    isDigit_of_mem_digits hc
  obtain ⟨c, ds, hds, hc⟩ := exists_cons_digits h
  rw [hds] at hdigits ⊢
  obtain ⟨hcdigit, hdsdigits⟩ := List.forall_mem_cons.1 hdigits
  have hvalue : ofDigitChars 10 [c] 0 = c.toNat - 48 := by
    rw [Nat.ofDigitChars_cons, Nat.ofDigitChars_nil, show '0'.toNat = 48 from rfl]
    omega
  have hbounds := toNat_bounds_of_isDigit hcdigit
  have hzero : c.toNat ≠ 48 := fun heq => hc (Char.toNat_inj.1 heq)
  refine ⟨c.toNat - 48, by omega, by omega, ?_⟩
  have hexponent : ∀ x ∈ 'e' :: (if point - 1 < 0 then '-' else '+') ::
      Nat.toDigits 10 (point - 1).natAbs, isBlank x = false :=
    List.forall_mem_cons.2 ⟨by decide, List.forall_mem_cons.2 ⟨by split <;> decide,
      fun x hx => isBlank_of_isDigit (isDigit_of_mem_digits hx)⟩⟩
  rw [← hvalue, scientific, List.append_assoc, List.append_assoc]
  cases ds with
  | nil => exact @Leads.of_append [c] _ (by simp) (by simpa using hcdigit) (by rfl) hexponent
  | cons x xs =>
    exact @Leads.of_append [c] ('.' :: (x :: xs) ++ _) (by simp) (by simpa using hcdigit) (by rfl)
      fun y hy => (List.mem_append.1 hy).elim (not_blank_of_point hdsdigits y) (hexponent y)

end Decimal

/-! ### Page parameters -/

namespace JsonNumber

/-- The number without its fraction. -/
def integerPart : JsonNumber → Int
  | .integer n => n.val
  | .real x => x.truncate

/-- The number has no exponent in its text: an integer, a zero, or a real of moderate size. -/
def WrittenOut : JsonNumber → Prop
  | .integer _ => True
  | .real x => x.mantissa = 0 ∨ 10 ^ (-5 : Int) ≤ x.abs ∧ x.abs < 10 ^ (16 : Int)

end JsonNumber

namespace PageParam

/-- A real is read from the digits in front of its shortest decimal. -/
theorem ofJson_real {x : Binary64} {w : Nat}
    (h : Leads w (JsonNumber.layout.write (Decimal.shortest x))) :
    ofJson (.number (.real x)) =
      .valid (.clamp signedMin_le_signedMax (if x.negative then -w else w)) :=
  ofString_of_leads h x.negative

theorem leads_zero {x : Binary64} (h : x.mantissa = 0) :
    Leads 0 (JsonNumber.layout.write (Decimal.shortest x)) := by
  have hzero : Decimal.shortest x = ⟨0, 0⟩ := by
    rw [Decimal.shortest, if_pos (by simp [Binary64.isZero, h])]
  rw [hzero]
  exact @Leads.of_append ['0'] ['.', '0'] (by decide) (List.forall_mem_singleton.2 rfl) (by rfl)
    (List.forall_mem_cons.2 ⟨by decide, List.forall_mem_singleton.2 (by decide)⟩)

theorem leads_of_moderate {x : Binary64} (h : x.mantissa ≠ 0)
    (hsize : 10 ^ (-5 : Int) ≤ x.abs ∧ x.abs < 10 ^ (16 : Int)) :
    Leads x.whole (JsonNumber.layout.write (Decimal.shortest x)) := by
  obtain ⟨w, hleads, hle, hlt⟩ := Decimal.leads_positional (Decimal.digits_shortest_ne_zero h)
  obtain ⟨hle', hlt'⟩ := Decimal.whole_value_shortest h (Decimal.exponent_le_one hsize.2)
  have hwhole : x.whole = w := by
    have hlt : (x.whole : ℚ) < w + 1 := hle'.trans_lt hlt
    have hlt' : (w : ℚ) < x.whole + 1 := hle.trans_lt hlt'
    norm_cast at hlt hlt'
    omega
  rw [hwhole, Decimal.Layout.write]
  exact if_pos ((Decimal.point_shortest_iff h).2 hsize) ▸ hleads

theorem leads_of_extreme {x : Binary64} (h : x.mantissa ≠ 0)
    (hsize : ¬ (10 ^ (-5 : Int) ≤ x.abs ∧ x.abs < 10 ^ (16 : Int))) :
    ∃ w, 1 ≤ w ∧ w ≤ 9 ∧ Leads w (JsonNumber.layout.write (Decimal.shortest x)) := by
  obtain ⟨w, hlo, hhi, hleads⟩ := Decimal.leads_scientific (Decimal.digits_shortest_ne_zero h)
    (Decimal.shortest x).point
  refine ⟨w, hlo, hhi, ?_⟩
  rw [Decimal.Layout.write]
  exact if_neg (mt (Decimal.point_shortest_iff h).1 hsize) ▸ hleads

/-- Of a real with an exponent the integer part is none of the digits: it is zero or large. -/
theorem whole_of_extreme {x : Binary64}
    (hsize : ¬ (10 ^ (-5 : Int) ≤ x.abs ∧ x.abs < 10 ^ (16 : Int))) :
    x.whole = 0 ∨ 10 ^ 16 ≤ x.whole := by
  obtain ⟨hle, hlt⟩ := Decimal.whole_bounds x
  rcases not_and_or.1 hsize with hsmall | hlarge
  · left
    have hone : (10 : ℚ) ^ (-5 : Int) < 1 := by norm_num
    have hwhole : (x.whole : ℚ) < 1 := (hle.trans_lt (not_le.1 hsmall)).trans hone
    norm_cast at hwhole
    omega
  · right
    have hten : (10 : ℚ) ^ (16 : Int) = (10 ^ 16 : Nat) := by norm_num
    have hwhole : (10 : ℚ) ^ (16 : Int) < x.whole + 1 := (not_lt.1 hlarge).trans_lt hlt
    rw [hten] at hwhole
    norm_cast at hwhole
    omega

/-- **A JSON number as a page parameter** is read as its integer part, clamped to 64 bits, exactly
if its text has no exponent. If it has one, the digit that stands first is all that is read. -/
theorem ofJson_number_iff (n : JsonNumber) :
    (ofJson (.number n) = .valid (.clamp signedMin_le_signedMax n.integerPart) ↔ n.WrittenOut) ∧
      (¬ n.WrittenOut → ∃ d : Int, 1 ≤ d.natAbs ∧ d.natAbs ≤ 9 ∧
        ofJson (.number n) = .valid (.clamp signedMin_le_signedMax d)) := by
  cases n with
  | integer n => exact ⟨iff_of_true (ofString_text n.val) trivial, fun h => absurd trivial h⟩
  | real x =>
    rcases eq_or_ne x.mantissa 0 with hzero | hzero
    · have hwhole : x.whole = 0 := by simp [Binary64.whole, Binary64.magnitude, hzero]
      have hread := ofJson_real (leads_zero hzero)
      rw [← hwhole] at hread
      exact ⟨iff_of_true hread (.inl hzero), fun h => absurd (.inl hzero) h⟩
    by_cases hsize : 10 ^ (-5 : Int) ≤ x.abs ∧ x.abs < 10 ^ (16 : Int)
    · have hread := ofJson_real (leads_of_moderate hzero hsize)
      exact ⟨iff_of_true hread (.inr hsize), fun h => absurd (.inr hsize) h⟩
    · obtain ⟨w, hlo, hhi, hleads⟩ := leads_of_extreme hzero hsize
      have hread := ofJson_real hleads
      refine ⟨iff_of_false (fun heq => ?_) (not_or.2 ⟨hzero, hsize⟩), fun _ => ⟨_, ?_, ?_, hread⟩⟩
      · have hval := congrArg Bounded.val (valid.inj (hread.symm.trans heq))
        rw [Bounded.val_clamp, Bounded.val_clamp, JsonNumber.integerPart,
          Binary64.truncate_eq_whole] at hval
        have hwhole := whole_of_extreme hsize
        split at hval <;> omega
      · split <;> omega
      · split <;> omega

/-- Ten to the sixteenth, as a real, has an exponent. -/
theorem exists_digit_of_ten_pow_sixteen :
    ∃ d : Int, 1 ≤ d.natAbs ∧ d.natAbs ≤ 9 ∧
      ofJson (.number (.real ⟨false, 5000000000000000, 1, by decide, by decide, by decide,
        .inl (by decide)⟩)) = .valid (.clamp signedMin_le_signedMax d) := by
  refine (ofJson_number_iff _).2 ?_
  rintro (h | h)
  · cases h
  · norm_num [Binary64.abs] at h

/-- The first real with an exponent is read as one, although it is an integer, and so is a real that
is next to nothing. -/
theorem ten_pow_sixteen_reads_one :
    JsonNumber.integerPart (.real ⟨false, 5000000000000000, 1, by decide, by decide, by decide,
        .inl (by decide)⟩) = 10000000000000000 ∧
      ofJson (.number (.real ⟨false, 5000000000000000, 1, by decide, by decide, by decide,
        .inl (by decide)⟩)) = .valid ⟨1, by decide, by decide⟩ ∧
    JsonNumber.integerPart (.real ⟨false, 7555786372591432, -76, by decide, by decide, by decide,
        .inl (by decide)⟩) = 0 ∧
      ofJson (.number (.real ⟨false, 7555786372591432, -76, by decide, by decide, by decide,
        .inl (by decide)⟩)) = .valid ⟨1, by decide, by decide⟩ := by
  decide +kernel

end PageParam

end ListQuery
