import ListQuery.Json.Reader.Skip
import ListQuery.Proofs.CompactText

/-!
# Passing over a compact text

A value that nobody asked for is passed over without being kept, by an automaton with a stack of open
containers, not by the reader of values. On the text of a plain value it goes as far as that reader
does: `skipValue_text`.

The automaton takes steps that are bounded beforehand, by the length of the text. So each part of a
text comes with the number of steps it takes (`Passes`), and an array or an object adds up those of
its contents; a value takes fewer than two for each of its characters.
-/

namespace ListQuery.Json.Reader

/-! ### Scalars -/

/-- The form of a character inside a string is passed over in one step. -/
theorem skipStringFrom_escape (steps : Nat) (c : Char) (cs : List Char) :
    skipStringFrom (steps + 1) (escape c ++ cs) = skipStringFrom steps cs := by
  unfold escape
  split_ifs with hquote hbackslash hb hf hn hr ht hcontrol
  case pos | pos | pos | pos | pos | pos | pos => rfl
  case pos =>
    have hquad := hexQuad_control hcontrol cs
    show (skipEscape ('u' :: '0' :: '0' :: hexDigit (c.toNat / 16) :: hexDigit c.toNat :: cs) >>=
      skipStringFrom steps) = _
    rw [skipEscape, hquad]
    rfl
  case neg =>
    rw [List.singleton_append, skipStringFrom, if_neg hcontrol]
    · exact hquote
    · exact hbackslash

theorem skipStringFrom_text {s : List Char} {steps : Nat} (h : s.length < steps)
    (rest : List Char) : skipStringFrom steps (s.flatMap escape ++ '"' :: rest) = .ok rest := by
  induction s generalizing steps with
  | nil =>
    obtain ⟨more, rfl⟩ := Nat.exists_eq_add_of_lt h
    rfl
  | cons c s ih =>
    obtain ⟨more, rfl⟩ := Nat.exists_eq_add_of_lt h
    rw [List.flatMap_cons, List.append_assoc, skipStringFrom_escape]
    exact ih (Nat.lt_of_succ_lt_succ h)

theorem skipString_text (s : String) (rest : List Char) :
    skipString (s.toList.flatMap escape ++ '"' :: rest) = .ok rest := by
  have hlength := length_le_length_flatMap_escape s.toList
  refine skipStringFrom_text ?_ rest
  rw [List.length_append, List.length_cons]
  omega

theorem skipFraction_of_ended {rest : List Char} (h : Ended rest) : skipFraction rest = .ok rest := by
  unfold skipFraction
  split
  case h_1 => exact absurd rfl h.not_fraction.1
  case h_2 =>
    unfold skipExponent
    split
    case h_1 => exact absurd rfl h.not_fraction.2.1
    case h_2 => exact absurd rfl h.not_fraction.2.2
    case h_3 => rfl

theorem skipNumber_digits (n : Nat) {rest : List Char} (h : Ended rest) :
    skipNumber (Nat.toDigits 10 n ++ rest) = .ok rest := by
  by_cases hzero : n = 0
  · subst hzero
    cases rest with
    | nil => rfl
    | cons c cs =>
      rw [Nat.toDigits_zero, List.singleton_append, skipNumber, if_neg (by simp [h.not_isDigit])]
      exact skipFraction_of_ended h
  · obtain ⟨d, ds, hds, hd⟩ := exists_cons_digits hzero
    have hall : ∀ c ∈ d :: ds, c.isDigit = true := fun c hc =>
      isDigit_of_mem_digits (n := n) (by rwa [hds])
    have hrun : digitRun (d :: ds ++ rest) = (d :: ds, rest) := digitRun_append hall h
    rw [hds]
    unfold skipNumber
    split
    · rename_i heq
      exact absurd (List.cons.inj heq).1 hd
    · refine Decoded.bind_eq_ok_iff.2 ⟨rest, ?_, skipFraction_of_ended h⟩
      rw [skipDigits, hrun]

theorem skipScalar?_integerText (n : Int) {rest : List Char} (h : Ended rest) :
    skipScalar? (integerText n ++ rest) = .ok (none, rest) := by
  cases n with
  | ofNat n =>
    have hskip := skipNumber_digits n h
    obtain ⟨d, ds, hds, hd⟩ := exists_cons_toDigits n
    rw [hds, List.cons_append] at hskip
    rw [integerText, hds, List.cons_append]
    obtain ⟨k, hk, rfl⟩ := exists_digit hd
    -- the automaton has a case for each character that a value starts with, and none for a digit
    interval_cases k <;> exact Decoded.bind_eq_ok_iff.2 ⟨rest, hskip, rfl⟩
  | negSucc n =>
    exact Decoded.bind_eq_ok_iff.2 ⟨rest, skipNumber_digits (n + 1) h, rfl⟩

/-! ### The automaton -/

/-- In `n` steps the automaton passes over a text, and is then in another state. -/
def Passes (n : Nat) (state : SkipState) (text : List Char) (frames frames' : List Frame) : Prop :=
  ∀ steps {rest : List Char}, Ended rest →
    skipFrom (steps + n) frames state (text ++ rest) = skipFrom steps frames' .ended rest

/-- A value is passed over in few steps, whatever is open around it. -/
def SkipsValue (v : Json) : Prop :=
  ∃ n, n + 1 ≤ 2 * v.text.length ∧ ∀ frames, Passes n .value v.text frames frames

theorem skipsValue_of_scalar {v : Json} (hlength : 1 ≤ v.text.length)
    (h : ∀ {rest}, Ended rest → skipScalar? (v.text ++ rest) = .ok (none, rest)) : SkipsValue v := by
  refine ⟨1, by omega, fun frames steps rest hrest => ?_⟩
  rw [skipFrom, h hrest]
  rfl

/-- A value and what follows it in its container. -/
theorem Passes.value_then {v : Json} {after : List Char} {m n : Nat} {frames frames' : List Frame}
    (hv : Passes m .value v.text frames frames) (hafter : Passes n .ended after frames frames')
    (hended : ∀ rest, Ended (after ++ rest)) :
    Passes (n + m) .value (v.text ++ after) frames frames' := by
  intro steps rest hrest
  rw [List.append_assoc, ← Nat.add_assoc, hv _ (hended rest), hafter _ hrest]

/-- What is behind the first item of an array: a step for each comma, and one for the bracket. -/
theorem passes_moreItemsText {vs : List Json} (hvs : ∀ v ∈ vs, SkipsValue v) :
    ∃ n ≤ 2 * (moreItemsText vs).length, ∀ frames,
      Passes n .ended (moreItemsText vs) (.array :: frames) frames := by
  induction vs with
  | nil => exact ⟨1, by decide, fun frames steps rest hrest => rfl⟩
  | cons v vs ih =>
    rw [List.forall_mem_cons] at hvs
    obtain ⟨m, hm, hv⟩ := hvs.1
    obtain ⟨n, hn, hmore⟩ := ih hvs.2
    refine ⟨n + m + 1, ?_, fun frames steps rest hrest => ?_⟩
    · rw [moreItemsText, List.length_cons, List.length_append]
      omega
    · exact (hv _).value_then (hmore frames) (ended_moreItemsText vs) steps hrest

/-- The first item of an array follows the bracket without a character between them. -/
theorem skipFrom_first_item {v : Json} (h : Starts v) (steps : Nat) (frames : List Frame)
    (cs : List Char) :
    skipFrom (steps + 1) (.array :: frames) .opened (v.text ++ cs) =
      skipFrom steps (.array :: frames) .value (v.text ++ cs) := by
  rw [skipFrom.eq_def]
  dsimp only
  rw [h.skipSpace]
  obtain ⟨c, cs', hc, -, -, hclose, -⟩ := h
  rw [hc, List.cons_append]
  split
  case h_1 heq => cases heq
  case h_2 heq => exact absurd (List.cons.inj heq).1 hclose
  case h_3 heq => rw [heq]

theorem passes_itemsText {vs : List Json} (hstarts : ∀ v ∈ vs, Starts v)
    (hvs : ∀ v ∈ vs, SkipsValue v) :
    ∃ n ≤ 2 * (itemsText vs).length, ∀ frames,
      Passes n .opened (itemsText vs) (.array :: frames) frames := by
  cases vs with
  | nil => exact ⟨1, by decide, fun frames steps rest hrest => rfl⟩
  | cons v vs =>
    rw [List.forall_mem_cons] at hstarts hvs
    obtain ⟨m, hm, hv⟩ := hvs.1
    obtain ⟨n, hn, hmore⟩ := passes_moreItemsText hvs.2
    refine ⟨n + m + 1, ?_, fun frames steps rest hrest => ?_⟩
    · rw [itemsText, List.length_append]
      omega
    · have hrun := (hv _).value_then (hmore frames) (ended_moreItemsText vs) steps hrest
      rw [itemsText, List.append_assoc, ← Nat.add_assoc, skipFrom_first_item hstarts.1]
      rwa [List.append_assoc] at hrun

/-- A key and its colon are passed over in one step. -/
theorem skipFrom_key (steps : Nat) (frames : List Frame) (key : String) (cs : List Char) :
    skipFrom (steps + 1) frames .key (stringText key ++ ':' :: cs) =
      skipFrom steps frames .value cs := by
  have hkey : skipKey ('"' :: (key.toList.flatMap escape ++ '"' :: ':' :: cs)) = .ok cs :=
    Decoded.bind_eq_ok_iff.2 ⟨_, skipString_text key (':' :: cs), rfl⟩
  rw [stringText, List.cons_append, List.append_assoc]
  show (skipKey ('"' :: (key.toList.flatMap escape ++ '"' :: ':' :: cs)) >>= _) = _
  rw [hkey]
  rfl

/-- A member and what follows it in its object. -/
theorem Passes.member_then {key : String} {v : Json} {after : List Char} {n : Nat}
    {frames frames' : List Frame} (h : Passes n .value (v.text ++ after) frames frames') :
    Passes (n + 1) .key (stringText key ++ ':' :: (v.text ++ after)) frames frames' := by
  intro steps rest hrest
  rw [List.append_assoc, List.cons_append, ← Nat.add_assoc, skipFrom_key, h _ hrest]

/-- What is behind the first member of an object. -/
theorem passes_moreMembersText {ms : List (String × Json)} (hms : ∀ m ∈ ms, SkipsValue m.2) :
    ∃ n ≤ 2 * (moreMembersText ms).length, ∀ frames,
      Passes n .ended (moreMembersText ms) (.object :: frames) frames := by
  induction ms with
  | nil => exact ⟨1, by decide, fun frames steps rest hrest => rfl⟩
  | cons member ms ih =>
    rw [List.forall_mem_cons] at hms
    obtain ⟨m, hm, hv⟩ := hms.1
    obtain ⟨n, hn, hmore⟩ := ih hms.2
    refine ⟨n + m + 1 + 1, ?_, fun frames steps rest hrest => ?_⟩
    · rw [moreMembersText, List.length_cons, List.length_append, List.length_cons,
        List.length_append]
      omega
    · exact ((hv _).value_then (hmore frames) (ended_moreMembersText ms)).member_then steps hrest

theorem passes_membersText {ms : List (String × Json)} (hms : ∀ m ∈ ms, SkipsValue m.2) :
    ∃ n ≤ 2 * (membersText ms).length, ∀ frames,
      Passes n .opened (membersText ms) (.object :: frames) frames := by
  cases ms with
  | nil => exact ⟨1, by decide, fun frames steps rest hrest => rfl⟩
  | cons member ms =>
    rw [List.forall_mem_cons] at hms
    obtain ⟨m, hm, hv⟩ := hms.1
    obtain ⟨n, hn, hmore⟩ := passes_moreMembersText hms.2
    refine ⟨n + m + 1 + 1, ?_, fun frames steps rest hrest => ?_⟩
    · rw [membersText, List.length_append, List.length_cons, List.length_append, stringText,
        List.length_cons]
      omega
    · exact ((hv _).value_then (hmore frames) (ended_moreMembersText ms)).member_then steps hrest

/-- Every plain value is passed over, with the containers in it closed again. -/
theorem skipsValue_of_plain {depth : Nat} {v : Json} (h : Plain depth v) : SkipsValue v := by
  induction h with
  | null => exact skipsValue_of_scalar (by decide) fun _ => rfl
  | bool b => cases b <;> exact skipsValue_of_scalar (by decide) fun _ => rfl
  | integer n =>
    obtain ⟨c, cs, hcons, -⟩ := exists_cons_integerText n.val
    refine skipsValue_of_scalar ?_ fun hrest => skipScalar?_integerText n.val hrest
    show 1 ≤ (integerText n.val).length
    rw [hcons]
    exact Nat.succ_pos _
  | string s =>
    refine skipsValue_of_scalar (Nat.succ_pos _) fun {rest} _ => ?_
    rw [text, stringText, List.cons_append, List.append_assoc]
    exact Decoded.bind_eq_ok_iff.2 ⟨_, skipString_text s rest, rfl⟩
  | @array _ vs hvs ih =>
    obtain ⟨n, hn, hitems⟩ := passes_itemsText (fun v hv => starts_of_plain (hvs v hv)) ih
    refine ⟨n + 1, ?_, fun frames steps rest hrest => hitems frames steps hrest⟩
    rw [text, List.length_cons]
    omega
  | @object _ ms _ _ ih =>
    obtain ⟨n, hn, hmembers⟩ := passes_membersText ih
    refine ⟨n + 1, ?_, fun frames steps rest hrest => hmembers frames steps hrest⟩
    rw [text, List.length_cons]
    omega

/-- The text of a plain value is passed over as a whole, and nothing behind it. -/
theorem skipValue_text {depth : Nat} {v : Json} (h : Plain depth v) {rest : List Char}
    (hrest : Ended rest) : skipValue (v.text ++ rest) = .ok rest := by
  obtain ⟨n, hn, hskip⟩ := skipsValue_of_plain h
  obtain ⟨spare, hspare⟩ : ∃ spare, 2 * (v.text ++ rest).length + 2 = spare + 1 + n := by
    rw [List.length_append]
    exact ⟨2 * (v.text.length + rest.length) + 1 - n, by omega⟩
  rw [skipValue, hspare, hskip [] _ hrest]
  rfl

end ListQuery.Json.Reader
