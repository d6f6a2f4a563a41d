import ListQuery.Text.Basic
import Mathlib.Tactic.Ring

/-!
# Decimal digits

What the decimal digits of a number are, and what a run of digits says: its value
(`Nat.ofDigitChars`) grows by a power of ten for each digit that follows, its first digits are the
number without its last ones, and two runs of the same length are in the order of their values. So
numbers of a fixed width sort as texts the way they sort as numbers (`append_lt_append_iff`,
`ofDigitChars_lt_iff`).
-/

namespace ListQuery

open Nat (ofDigitChars)

/-! ### The digits of a number -/

theorem exists_digit {c : Char} (h : c.isDigit = true) : ∃ d < 10, c = Nat.digitChar d := by
  have hbounds := Char.isDigit_iff_toNat.1 h
  rw [show '0'.toNat = 48 from rfl, show '9'.toNat = 57 from rfl] at hbounds
  refine ⟨c.toNat - 48, by omega, Char.toNat_inj.1 ?_⟩
  rw [Nat.toNat_digitChar_of_lt_ten (by omega)]
  omega

theorem isDigit_of_mem_digits {n : Nat} {c : Char} (h : c ∈ Nat.toDigits 10 n) :
    c.isDigit = true :=
  Nat.isDigit_of_mem_toDigits (by decide) (by decide) h

theorem exists_cons_toDigits (n : Nat) :
    ∃ d ds, Nat.toDigits 10 n = d :: ds ∧ d.isDigit = true := by
  obtain ⟨d, ds, hds⟩ := List.exists_cons_of_ne_nil (Nat.toDigits_ne_nil (n := n) (b := 10))
  exact ⟨d, ds, hds, isDigit_of_mem_digits (n := n) (by rw [hds]; exact List.mem_cons_self)⟩

/-- The digits of a number other than zero start with one that is not zero. -/
theorem exists_cons_digits {n : Nat} (h : n ≠ 0) :
    ∃ d ds, Nat.toDigits 10 n = d :: ds ∧ d ≠ '0' := by
  induction n using Nat.strongRecOn with
  | ind n ih =>
    rw [Nat.toDigits_eq_if (by decide)]
    by_cases hn : n < 10
    · rw [if_pos hn]
      refine ⟨_, _, rfl, fun he => h ?_⟩
      have hchar : (Nat.digitChar n).toNat = (Nat.digitChar 0).toNat := congrArg Char.toNat he
      rw [Nat.toNat_digitChar_of_lt_ten hn, Nat.toNat_digitChar_of_lt_ten (by decide)] at hchar
      omega
    · rw [if_neg hn]
      obtain ⟨d, ds, hds, hd⟩ := ih (n / 10) (by omega) (by omega)
      exact ⟨d, ds ++ [Nat.digitChar (n % 10)], by rw [hds, List.cons_append], hd⟩

theorem Text.isBlank_of_isDigit {c : Char} (h : c.isDigit = true) : isBlank c = false := by
  have hall : ∀ d < 10, isBlank (Nat.digitChar d) = false := by decide
  obtain ⟨d, hd, rfl⟩ := exists_digit h
  exact hall d hd

/-! ### The value of a run of digits -/

theorem toNat_bounds_of_isDigit {c : Char} (h : c.isDigit = true) :
    48 ≤ c.toNat ∧ c.toNat ≤ 57 := Char.isDigit_iff_toNat.1 h

theorem ofDigitChars_append_eq (ds es : List Char) :
    ofDigitChars 10 (ds ++ es) 0 =
      10 ^ es.length * ofDigitChars 10 ds 0 + ofDigitChars 10 es 0 := by
  rw [Nat.ofDigitChars_append, Nat.ofDigitChars_eq_ofDigitChars_zero]

theorem ofDigitChars_lt {ds : List Char} (h : ∀ c ∈ ds, c.isDigit = true) :
    ofDigitChars 10 ds 0 < 10 ^ ds.length := by
  induction ds with
  | nil => simp
  | cons d ds ih =>
    obtain ⟨hd, hds⟩ := List.forall_mem_cons.1 h
    have hbounds := toNat_bounds_of_isDigit hd
    have hhead : ofDigitChars 10 [d] 0 ≤ 9 := by
      rw [Nat.ofDigitChars_cons, Nat.ofDigitChars_nil, show '0'.toNat = 48 from rfl]
      omega
    have hscaled := Nat.mul_le_mul_left (10 ^ ds.length) hhead
    have hrest := ih hds
    rw [← List.singleton_append, ofDigitChars_append_eq, List.length_append, List.length_singleton,
      Nat.pow_add]
    omega

/-- The first digits of a number are what is left of it without the last ones. -/
theorem ofDigitChars_take {ds : List Char} (h : ∀ c ∈ ds, c.isDigit = true) (k : Nat) :
    ofDigitChars 10 (ds.take k) 0 = ofDigitChars 10 ds 0 / 10 ^ (ds.length - k) := by
  have hdrop : ofDigitChars 10 (ds.drop k) 0 < 10 ^ (ds.drop k).length :=
    ofDigitChars_lt fun c hc => h c (List.mem_of_mem_drop hc)
  have hsplit := ofDigitChars_append_eq (ds.take k) (ds.drop k)
  rw [List.take_append_drop, List.length_drop] at hsplit
  rw [List.length_drop] at hdrop
  rw [hsplit, Nat.mul_add_div (Nat.pow_pos (by decide)), Nat.div_eq_of_lt hdrop, Nat.add_zero]

/-! ### Order -/

/-- Runs of equally many digits are in the order of their values. -/
theorem ofDigitChars_lt_iff {ds es : List Char} (hds : ∀ c ∈ ds, c.isDigit = true)
    (hes : ∀ c ∈ es, c.isDigit = true) (hlength : ds.length = es.length) (i j : Nat) :
    ofDigitChars 10 ds i < ofDigitChars 10 es j ↔ i < j ∨ i = j ∧ ds < es := by
  induction ds generalizing es i j with
  | nil =>
    obtain rfl : es = [] := List.eq_nil_of_length_eq_zero hlength.symm
    simp
  | cons d ds ih =>
    cases es with
    | nil => cases hlength
    | cons e es =>
      obtain ⟨hd, hds⟩ := List.forall_mem_cons.1 hds
      obtain ⟨he, hes⟩ := List.forall_mem_cons.1 hes
      have hd := toNat_bounds_of_isDigit hd
      have he := toNat_bounds_of_isDigit he
      have hchar : d < e ↔ d.toNat < e.toNat := UInt32.lt_iff_toNat_lt
      rw [Nat.ofDigitChars_cons, Nat.ofDigitChars_cons, ih hds hes (Nat.succ.inj hlength),
        List.cons_lt_cons_iff, hchar, ← Char.toNat_inj, show '0'.toNat = 48 from rfl]
      by_cases hrest : ds < es <;> simp only [hrest, and_true, and_false, or_false] <;> omega

/-- Texts that start with equally long parts are compared by these parts first. -/
theorem append_lt_append_iff {ds es : List Char} (h : ds.length = es.length) (xs ys : List Char) :
    ds ++ xs < es ++ ys ↔ ds < es ∨ ds = es ∧ xs < ys := by
  induction ds generalizing es with
  | nil =>
    obtain rfl : es = [] := List.eq_nil_of_length_eq_zero h.symm
    simp
  | cons d ds ih =>
    cases es with
    | nil => cases h
    | cons e es =>
      rw [List.cons_append, List.cons_append, List.cons_lt_cons_iff, ih (Nat.succ.inj h),
        List.cons_lt_cons_iff, List.cons.injEq]
      tauto

end ListQuery
