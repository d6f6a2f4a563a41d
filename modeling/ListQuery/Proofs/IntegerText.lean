import ListQuery.Json.Reader.Number
import ListQuery.PageParam
import ListQuery.Proofs.Digits
import Mathlib.Data.List.TakeWhile

/-!
# Integers read from their text

The text of an integer is a minus sign, if it is negative, and its decimal digits without a zero in
front (`integerText`). Two readers get such texts: page parameters, which take a sign and the digits
that follow it and clamp what they find to 64 bits, and JSON texts, where the digits have to end
where the next token starts. Both give the integer back, if it has 64 bits: `ofString_integerText`
and `number_integerText`.
-/

namespace ListQuery

/-- The text of an integer starts with a minus sign or a digit. -/
theorem exists_cons_integerText (n : Int) :
    ∃ c cs, integerText n = c :: cs ∧ (c = '-' ∨ c.isDigit = true) := by
  cases n with
  | ofNat n =>
    obtain ⟨d, ds, hds, hd⟩ := exists_cons_toDigits n
    exact ⟨d, ds, hds, .inr hd⟩
  | negSucc n => exact ⟨_, _, rfl, .inl rfl⟩

/-! ### Sign and digits -/

namespace Text

theorem splitSign_of_isDigit {c : Char} {cs : List Char} (h : c.isDigit = true) :
    splitSign (c :: cs) = (false, c :: cs) := by
  refine splitSign_of_head fun d hd => ?_
  obtain rfl : c = d := Option.some.inj hd
  constructor
  · rintro rfl
    cases h
  · rintro rfl
    cases h

theorem splitSign_digits (n : Nat) :
    splitSign (Nat.toDigits 10 n) = (false, Nat.toDigits 10 n) := by
  obtain ⟨d, ds, hds, hd⟩ := exists_cons_toDigits n
  rw [hds, splitSign_of_isDigit hd]

theorem splitSign_integerText (z : Int) :
    splitSign (integerText z) = (decide (z < 0), Nat.toDigits 10 z.natAbs) := by
  cases z with
  | ofNat n => exact splitSign_digits n
  | negSucc n => rw [decide_eq_true (Int.negSucc_lt_zero n)]; rfl

theorem not_blank_integerText (z : Int) : ∀ c ∈ integerText z, isBlank c = false := by
  have hdigits : ∀ n, ∀ c ∈ Nat.toDigits 10 n, isBlank c = false := fun n c hc =>
    isBlank_of_isDigit (isDigit_of_mem_digits hc)
  cases z with
  | ofNat n => exact hdigits n
  | negSucc n => exact List.forall_mem_cons.2 ⟨by decide, hdigits (n + 1)⟩

end Text

/-! ### Page parameters -/

namespace PageParam

open Text

/-- A page parameter that is the text of an integer is this integer, or the bound next to it. -/
theorem ofString_text (z : Int) :
    ofString (String.ofList (integerText z)) = .valid (.clamp signedMin_le_signedMax z) := by
  have hdigits : (Nat.toDigits 10 z.natAbs).takeWhile Char.isDigit = Nat.toDigits 10 z.natAbs :=
    List.takeWhile_eq_self_iff.2 fun c hc => isDigit_of_mem_digits hc
  have hvalue : Nat.ofDigitChars 10 (Nat.toDigits 10 z.natAbs) 0 = z.natAbs :=
    Nat.ofDigitChars_ten_toDigits
  obtain ⟨d, ds, hds, -⟩ := exists_cons_toDigits z.natAbs
  rw [ofString, String.toList_ofList, trim_eq_self (not_blank_integerText z),
    splitSign_integerText]
  rw [hds] at hdigits hvalue
  simp only [hds, hdigits, ofDigits, hvalue, decide_eq_true_eq]
  congr 2
  split <;> omega

/-- A page parameter gives back the integer that it was written for. -/
theorem ofString_integerText (n : Signed64) :
    ofString (String.ofList (integerText n.val)) = .valid n := by
  rw [ofString_text]
  exact congrArg valid (Bounded.ext (Bounded.val_clamp_of_mem _ n.lo_le n.le_hi))

end PageParam

/-! ### JSON texts -/

namespace Json.Reader

/-- What follows a value in a compact text: nothing, or what separates or closes. -/
def Ended (rest : List Char) : Prop :=
  ∀ c cs, rest = c :: cs → c = ',' ∨ c = ']' ∨ c = '\x7d'

theorem Ended.not_isDigit {c : Char} {cs : List Char} (h : Ended (c :: cs)) :
    c.isDigit = false := by
  rcases h c cs rfl with rfl | rfl | rfl <;> rfl

theorem digitRun_append {ds rest : List Char} (hds : ∀ c ∈ ds, c.isDigit = true)
    (h : Ended rest) : digitRun (ds ++ rest) = (ds, rest) := by
  have hrest : rest.takeWhile Char.isDigit = [] ∧ rest.dropWhile Char.isDigit = rest := by
    cases rest with
    | nil => exact ⟨rfl, rfl⟩
    | cons c cs => simp [h.not_isDigit]
  rw [digitRun, List.takeWhile_append_of_pos hds, List.dropWhile_append_of_pos hds, hrest.1,
    hrest.2, List.append_nil]

theorem le_ofDigitChars (start : Nat) (ds : List Char) : start ≤ Nat.ofDigitChars 10 ds start := by
  rw [Nat.ofDigitChars_eq_ofDigitChars_zero]
  have := Nat.le_mul_of_pos_left start (Nat.pow_pos (n := ds.length) (show 0 < 10 by decide))
  omega

/-- Digits of a number below `2 ^ 64` are appended without loss. -/
theorem appendDigits_eq {start : Nat} {ds : List Char}
    (h : Nat.ofDigitChars 10 ds start < Nat.pow 2 64) :
    appendDigits start ds = (Nat.ofDigitChars 10 ds start, 0) := by
  induction ds generalizing start with
  | nil => rw [appendDigits, Nat.ofDigitChars_nil]
  | cons d ds ih =>
    have hstep : Nat.ofDigitChars 10 (d :: ds) start =
        Nat.ofDigitChars 10 ds (start * 10 + digitValue d) := by
      rw [Nat.ofDigitChars_cons, Nat.mul_comm]
      rfl
    rw [hstep] at h ⊢
    have hnext : start * 10 + digitValue d < Nat.pow 2 64 :=
      Nat.lt_of_le_of_lt (le_ofDigitChars _ ds) h
    rw [appendDigits, if_pos hnext, ih h]

/-- Behind the digits of an integer there is neither a point nor an exponent. -/
theorem Ended.not_fraction {c : Char} {cs : List Char} (h : Ended (c :: cs)) :
    c ≠ '.' ∧ c ≠ 'e' ∧ c ≠ 'E' := by
  rcases h c cs rfl with rfl | rfl | rfl <;> decide

theorem afterDigits_of_ended {negative : Bool} {n : Nat} {rest : List Char} (h : Ended rest) :
    afterDigits negative n 0 rest = wholeNumber negative n rest := by
  unfold afterDigits
  split
  case h_1 => exact absurd rfl h.not_fraction.1
  case h_2 => exact absurd rfl h.not_fraction.2.1
  case h_3 => exact absurd rfl h.not_fraction.2.2
  case h_4 => rw [if_pos rfl]

theorem unsignedNumber_digits {negative : Bool} {n : Nat} (hn : n < Nat.pow 2 64)
    {rest : List Char} (h : Ended rest) :
    unsignedNumber negative (Nat.toDigits 10 n ++ rest) = wholeNumber negative n rest := by
  by_cases hzero : n = 0
  · subst hzero
    rw [Nat.toDigits_zero, List.singleton_append, ← afterDigits_of_ended h]
    cases rest with
    | nil => rfl
    | cons c cs =>
      simp only [unsignedNumber, h.not_isDigit, Bool.false_eq_true, if_false]
  · obtain ⟨d, ds, hds, hd⟩ := exists_cons_digits hzero
    have hvalue : Nat.ofDigitChars 10 (d :: ds) 0 = n := by
      rw [← hds, Nat.ofDigitChars_ten_toDigits]
    have hall : ∀ c ∈ d :: ds, c.isDigit = true := fun c hc =>
      isDigit_of_mem_digits (n := n) (by rwa [hds])
    have hrun : digitRun (d :: (ds ++ rest)) = (d :: ds, rest) := digitRun_append hall h
    rw [hds, List.cons_append, unsignedNumber.eq_def]
    split
    · rename_i heq
      exact absurd heq (List.cons_ne_nil _ _)
    · rename_i heq
      exact absurd (List.cons.inj heq).1 hd
    · rename_i heq
      obtain ⟨rfl, rfl⟩ := List.cons.inj heq
      have happend : appendDigits 0 (d :: ds) = (n, 0) := by
        rw [appendDigits_eq (by rw [hvalue]; exact hn), hvalue]
      simp only [hall _ List.mem_cons_self, if_true, hrun, happend]
      exact afterDigits_of_ended h

/-- Digits carry no sign. -/
theorem number_digits (n : Nat) (rest : List Char) :
    number (Nat.toDigits 10 n ++ rest) = unsignedNumber false (Nat.toDigits 10 n ++ rest) := by
  obtain ⟨d, ds, hds, hd⟩ := exists_cons_toDigits n
  rw [hds, List.cons_append, number.eq_def]
  split
  case h_1 heq =>
    rw [(List.cons.inj heq).1] at hd
    exact absurd hd (by decide)
  case h_2 => rfl

/-- A JSON text gives back the integer that it was written for. -/
theorem number_integerText (n : JsonInteger) {rest : List Char} (h : Ended rest) :
    number (integerText n.val ++ rest) = .ok (.integer n, rest) := by
  have hlo := n.lo_le
  have hhi := n.le_hi
  have hbound : Nat.pow 2 64 = 18446744073709551616 := rfl
  cases hn : n.val with
  | ofNat k =>
    have hk : n.val = (k : Int) := hn
    have hint : Bounded.ofInt? (k : Int) = some n := Bounded.ofInt?_eq_some_iff.2 hk
    rw [integerText, number_digits, unsignedNumber_digits (by omega) h, wholeNumber,
      if_neg (by decide), hint]
  | negSucc k =>
    have hint : Bounded.ofInt? (-((k + 1 : Nat) : Int)) = some n :=
      Bounded.ofInt?_eq_some_iff.2 (hn.trans (by omega))
    rw [integerText, List.cons_append, number, unsignedNumber_digits (by omega) h, wholeNumber,
      if_pos rfl, if_neg (Nat.succ_ne_zero k), hint]

end Json.Reader

end ListQuery
