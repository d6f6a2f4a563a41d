import ListQuery.PageParam.Reading
import ListQuery.Proofs.IntegerText

/-!
# The integer in front of a text

A page parameter is read from the digits in front of a text. Every text is a `Numeral`, and what it
is as a parameter is what its parts say: without digits it is kept as it came, and otherwise it is
the value of the digits, with their sign and clamped to 64 bits.

Nothing goes wrong on the way when the text is read in bytes and words (`ofBytes?_eq`). The sign and
the digits are ASCII characters, so a cut behind them is never inside of a character, whatever
stands around them. The digits are no less than zero, so an integer that they make can be negated;
`-2 ^ 63` is not the negative of one, it is the bound that is taken as the digits are too large.

So a parameter gives back every integer that was written for it, and a parameter that is shown and
read again is the same (`ofString_numeral`).
-/

namespace ListQuery

open Nat (ofDigitChars)
open Text

/-! ### Words -/

namespace PageParam

/-- Ten times an integer that is too large stays too large when a digit is added. -/
theorem pushDigit?_eq {n : Signed64} (hn : 0 ≤ n.val) (c : Char) :
    pushDigit? n c = Bounded.ofInt? (n.val * 10 + (c.toNat - 48 : Nat)) := by
  rw [pushDigit?]
  cases htens : (Bounded.ofInt? (n.val * 10) : Option Signed64) with
  | some tens =>
    rw [← Bounded.ofInt?_eq_some_iff.1 htens]
    rfl
  | none =>
    have hout := Bounded.ofInt?_eq_none_iff.1 htens
    exact (Bounded.ofInt?_eq_none_iff.2 (by omega)).symm

/-- From any start the digits are pushed without loss, or one of the steps leaves 64 bits. -/
theorem foldlM_pushDigit? (ds : List Char) (start : Nat) :
    (Bounded.ofInt? (start : Int) : Option Signed64).bind (fun n => ds.foldlM pushDigit? n) =
      Bounded.ofInt? (ofDigitChars 10 ds start : Nat) := by
  induction ds generalizing start with
  | nil =>
    rw [Nat.ofDigitChars_nil]
    cases (Bounded.ofInt? (start : Int) : Option Signed64) <;> rfl
  | cons c ds ih =>
    cases hstart : (Bounded.ofInt? (start : Int) : Option Signed64) with
    | some n =>
      have hn : n.val = start := Bounded.ofInt?_eq_some_iff.1 hstart
      have hnext : n.val * 10 + (c.toNat - 48 : Nat) =
          (10 * start + (c.toNat - '0'.toNat) : Nat) := by
        rw [hn, show '0'.toNat = 48 from rfl]
        omega
      rw [Nat.ofDigitChars_cons, ← ih, ← hnext, ← pushDigit?_eq (by omega)]
      rfl
    | none =>
      have hout := Bounded.ofInt?_eq_none_iff.1 hstart
      have hle := Json.Reader.le_ofDigitChars start (c :: ds)
      exact (Bounded.ofInt?_eq_none_iff.2 (by omega)).symm

theorem ofDigits?_eq (ds : List Char) :
    ofDigits? ds = Bounded.ofInt? (ofDigitChars 10 ds 0 : Nat) :=
  foldlM_pushDigit? ds 0

/-- The digits as an integer, or the bound, and negated, are the exact value clamped at the end. -/
theorem saturated?_eq (negative : Bool) (ds : List Char) :
    saturated? negative ds = some (ofDigits negative ds) := by
  rw [saturated?, ofDigits?_eq, ofDigits]
  generalize ofDigitChars 10 ds 0 = n
  cases hn : (Bounded.ofInt? (n : Int) : Option Signed64) with
  | some m =>
    have hm : m.val = n := Bounded.ofInt?_eq_some_iff.1 hn
    have hmax := m.le_hi
    cases negative with
    | true =>
      refine Bounded.ofInt?_eq_some_iff.2 ?_
      rw [Bounded.val_clamp, if_pos rfl]
      omega
    | false =>
      refine congrArg some (Bounded.ext ?_)
      rw [Bounded.val_clamp, if_neg Bool.false_ne_true]
      omega
  | none =>
    have hout := Bounded.ofInt?_eq_none_iff.1 hn
    cases negative with
    | true =>
      refine congrArg some (Bounded.ext ?_)
      rw [Bounded.val_clamp, if_pos rfl]
      dsimp only
      omega
    | false =>
      refine congrArg some (Bounded.ext ?_)
      rw [Bounded.val_clamp, if_neg Bool.false_ne_true]
      dsimp only
      omega

/-! ### Bytes -/

/-- A sign is one byte, so the text behind that byte is the text behind the sign. -/
theorem signOfBytes?_eq (cs : List Char) : signOfBytes? cs = some (splitSign cs) := by
  have hminus := head?_bytes_eq_iff (b := 45) (a := '-') (by decide) (by decide) cs
  have hplus := head?_bytes_eq_iff (b := 43) (a := '+') (by decide) (by decide) cs
  simp only [signOfBytes?, hminus, hplus]
  split
  case isTrue h =>
    obtain ⟨rest, rfl⟩ := List.head?_eq_some_iff.1 h
    have hcut : cutBytes? 1 ('-' :: rest) = some (['-'], rest) := cutBytes?_append ['-'] rest
    rw [hcut]
    rfl
  case isFalse hnot =>
    split
    case isTrue h =>
      obtain ⟨rest, rfl⟩ := List.head?_eq_some_iff.1 h
      have hcut : cutBytes? 1 ('+' :: rest) = some (['+'], rest) := cutBytes?_append ['+'] rest
      rw [hcut]
      rfl
    case isFalse hnot' =>
      rw [splitSign_of_head]
      intro c hc
      rw [Option.mem_def] at hc
      exact ⟨fun h => hnot (h ▸ hc), fun h => hnot' (h ▸ hc)⟩

/-- Read in bytes and words, a text is the same parameter, and no step fails. -/
theorem ofBytes?_eq (raw : String) : ofBytes? raw = some (ofString raw) := by
  rw [ofBytes?, ofString, signOfBytes?_eq]
  generalize splitSign (trim raw.toList) = parts
  obtain ⟨negative, unsigned⟩ := parts
  have hcut := cutBytes?_append (unsigned.takeWhile Char.isDigit) (unsigned.dropWhile Char.isDigit)
  rw [List.takeWhile_append_dropWhile] at hcut
  simp only [Option.bind_eq_bind, Option.bind_some, takeWhile_bytes]
  cases hds : unsigned.takeWhile Char.isDigit with
  | nil => rfl
  | cons d ds =>
    have hne : (bytes (d :: ds)).length ≠ 0 := by
      rw [Ne, length_bytes_eq_zero_iff]
      exact List.cons_ne_nil d ds
    rw [hds] at hcut
    rw [if_neg hne, hcut]
    simp only [Option.bind_some, saturated?_eq]
    rfl

end PageParam

/-! ### Every text by its parts -/

namespace Numeral

/-- The sign of a text is its minus or plus sign, and without one the text starts with neither. -/
theorem exists_sign (cs : List Char) :
    ∃ sign, sign ∈ [[], ['-'], ['+']] ∧ cs = sign ++ (splitSign cs).2 ∧
      ∀ c ∈ (splitSign cs).2.head?, sign = [] → c ≠ '-' ∧ c ≠ '+' := by
  rw [splitSign.eq_def]
  split
  case h_1 cs => exact ⟨['-'], by simp, rfl, by simp⟩
  case h_2 cs => exact ⟨['+'], by simp, rfl, by simp⟩
  case h_3 hminus hplus =>
    refine ⟨[], by simp, rfl, ?_⟩
    intro c hc _
    obtain ⟨rest, rfl⟩ := List.head?_eq_some_iff.1 hc
    constructor
    · rintro rfl
      exact hminus rest rfl
    · rintro rfl
      exact hplus rest rfl

/-- Every text has such parts. -/
theorem exists_text (cs : List Char) : ∃ t : Numeral, t.text = cs := by
  obtain ⟨before, after, hcs, hbefore, hafter, hhead, hlast⟩ := exists_append_trim cs
  obtain ⟨sign, hsign, htrim, hnosign⟩ := exists_sign (trim cs)
  generalize (splitSign (trim cs)).2 = unsigned at htrim hnosign
  have hsplit := List.takeWhile_append_dropWhile (p := Char.isDigit) (l := unsigned)
  have hdigits : ∀ c ∈ unsigned.takeWhile Char.isDigit, c.isDigit = true :=
    List.all_eq_true.1 List.all_takeWhile
  have hrest : ∀ c ∈ (unsigned.dropWhile Char.isDigit).head?, c.isDigit = false := by
    intro c hc
    have hnot := List.head?_dropWhile_not Char.isDigit unsigned
    rwa [Option.mem_def.1 hc] at hnot
  rw [htrim, ← hsplit] at hcs hhead hlast
  rw [← hsplit] at hnosign
  exact ⟨⟨before, sign, _, _, after, hbefore, hafter, hhead, hlast, hsign, hnosign, hdigits,
    hrest⟩, hcs.symm⟩

variable (t : Numeral)

theorem splitSign_unblanked :
    splitSign (t.sign ++ (t.digits ++ t.rest)) =
      (decide (t.sign = ['-']), t.digits ++ t.rest) := by
  have hnosign := t.sign_of_head
  rcases List.mem_cons.1 t.sign_mem with h | h
  · rw [h, List.nil_append, splitSign_of_head fun c hc => hnosign c hc h]
    rfl
  rcases List.mem_cons.1 h with h | h
  · rw [h]
    rfl
  · rw [List.mem_singleton.1 h]
    rfl

theorem takeWhile_isDigit : (t.digits ++ t.rest).takeWhile Char.isDigit = t.digits := by
  have hrest : t.rest.takeWhile Char.isDigit = [] := by
    cases hr : t.rest with
    | nil => rfl
    | cons c cs =>
      have hc := t.head_not_digit c (by rw [hr]; rfl)
      exact List.takeWhile_cons_of_neg (by simp [hc])
  rw [List.takeWhile_append_of_pos t.isDigit_digits, hrest, List.append_nil]

/-- The parts of a text say what it is as a parameter. -/
theorem ofString_text : PageParam.ofString (String.ofList t.text) = t.param := by
  have htrim : trim t.text = t.sign ++ (t.digits ++ t.rest) :=
    trim_append_of_ends t.blank_before t.head_not_blank t.last_not_blank t.blank_after
  rw [PageParam.ofString, String.toList_ofList, htrim, t.splitSign_unblanked, param]
  simp only [t.takeWhile_isDigit]
  cases hds : t.digits with
  | nil => rfl
  | cons d ds =>
    rw [if_neg (List.cons_ne_nil d ds), value, hds]
    simp only [PageParam.ofDigits, decide_eq_true_eq]

end Numeral

/-! ### Page parameters -/

namespace PageParam

/-- A parameter that was read from a text is read again from what is shown of it. -/
theorem ofString_text_ofString (raw : String) : ofString (ofString raw).text = ofString raw := by
  cases h : ofString raw with
  | valid n => exact ofString_integerText n
  | invalid value =>
    obtain ⟨t, ht⟩ := Numeral.exists_text raw.toList
    have hraw : String.ofList t.text = raw := by rw [ht, String.ofList_toList]
    have hparam := t.ofString_text
    rw [hraw, h, Numeral.param] at hparam
    split at hparam
    case isTrue =>
      rw [hraw] at hparam
      rw [invalid.inj hparam, text, h, invalid.inj hparam]
    case isFalse => cases hparam

/-- **How a page parameter is read.** Every text has the parts of a numeral, and they say what it is:
the integer of its sign and digits, clamped to 64 bits, or itself if it has no digits. The bytes and
words in which it is read never fail, every integer of 64 bits is read from its decimal form, and a
parameter that is shown is read as the same parameter again. -/
theorem ofString_numeral :
    (∀ raw : String, ∃ t : Numeral, raw = String.ofList t.text) ∧
      (∀ t : Numeral, ofString (String.ofList t.text) = t.param) ∧
      (∀ raw : String, ofBytes? raw = some (ofString raw)) ∧
      (∀ n : Signed64, ofString (String.ofList (integerText n.val)) = .valid n) ∧
      ∀ raw : String, ofString (ofString raw).text = ofString raw := by
  refine ⟨?_, Numeral.ofString_text, ofBytes?_eq, ofString_integerText, ofString_text_ofString⟩
  intro raw
  obtain ⟨t, ht⟩ := Numeral.exists_text raw.toList
  exact ⟨t, by rw [ht, String.ofList_toList]⟩

/-- The least integer is the bound of digits that are too large. -/
example : ofDigits? "9223372036854775808".toList = none ∧
    ofString "\u3000-9223372036854775808é" = .valid ⟨-9223372036854775808, by decide, by decide⟩ := by
  decide +kernel

end PageParam

end ListQuery
