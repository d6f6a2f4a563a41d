import ListQuery.Json.Decoder.Basic
import ListQuery.Json.Printer
import ListQuery.Proofs.IntegerText
import Mathlib.Tactic.IntervalCases

/-!
# Values read from their compact text

The compact text of a value is read back as that value (`ofText_compact`), if the value is `Plain`:
its numbers are integers, no object in it repeats a key, and arrays and objects are nested no deeper
than a reader follows. A real number is left out because reading rounds anew.

Each part of a text is read with anything behind it that can follow a value, so that the readers of
arrays and objects can be followed item by item. Their loops are stated for any decoder and any
reader that follows it (`Reads`), since values are only one of the things that they read.
-/

namespace ListQuery.Json

/-- No number is real, no key is repeated, and containers are nested at most so deep. -/
inductive Plain : Nat → Json → Prop where
  | null {depth : Nat} : Plain depth .null
  | bool {depth : Nat} (b : Bool) : Plain depth (.bool b)
  | integer {depth : Nat} (n : JsonInteger) : Plain depth (.number (.integer n))
  | string {depth : Nat} (s : String) : Plain depth (.string s)
  | array {depth : Nat} {items : List Json} (h : ∀ v ∈ items, Plain depth v) :
    Plain (depth + 1) (.array items)
  | object {depth : Nat} {members : List (String × Json)} (hkeys : (Entries.keys members).Nodup)
    (h : ∀ m ∈ members, Plain depth m.2) : Plain (depth + 1) (.object members)

namespace Reader

/-! ### Strings -/

theorem hexValue?_hexDigit (n : Nat) : hexValue? (hexDigit n) = some (n % 16) := by
  have hall : ∀ d < 16, hexValue? (Nat.digitChar d) = some d := by decide
  exact hall (n % 16) (Nat.mod_lt n (by decide))

/-- The four digits that escape a control character. -/
theorem hexQuad_control {c : Char} (h : c.toNat < 0x20) (cs : List Char) :
    hexQuad ('0' :: '0' :: hexDigit (c.toNat / 16) :: hexDigit c.toNat :: cs) =
      .ok (c.toNat, cs) := by
  have hzero : hexValue? '0' = some 0 := by decide
  simp only [hexQuad, hzero, hexValue?_hexDigit, Except.ok.injEq, Prod.mk.injEq, and_true]
  omega

theorem unicodeEscape_control {c : Char} (h : c.toNat < 0x20) (cs : List Char) :
    unicodeEscape ('0' :: '0' :: hexDigit (c.toNat / 16) :: hexDigit c.toNat :: cs) =
      .ok (c, cs) := by
  refine Decoded.bind_eq_ok_iff.2 ⟨_, hexQuad_control h cs, ?_⟩
  dsimp only
  rw [if_neg (by omega), if_neg (by omega), Char.ofNat_toNat]

/-- The form of a character inside a string is read as that character. -/
theorem stringChars_escape (steps : Nat) (c : Char) (cs : List Char) :
    stringChars (steps + 1) (escape c ++ cs) =
      stringChars steps cs >>= fun r => .ok (c :: r.1, r.2) := by
  unfold escape
  split_ifs with hquote hbackslash hb hf hn hr ht hcontrol
  case pos | pos | pos | pos | pos | pos | pos => subst_vars; rfl
  case pos =>
    show (unicodeEscape ('0' :: '0' :: hexDigit (c.toNat / 16) :: hexDigit c.toNat :: cs) >>= _) = _
    rw [unicodeEscape_control hcontrol]
    rfl
  case neg =>
    rw [List.singleton_append, stringChars, if_neg hcontrol]
    · exact hquote
    · exact hbackslash

/-- A step reads a character, so that more steps than characters are enough. -/
theorem stringChars_text {s : List Char} {steps : Nat} (h : s.length < steps) (rest : List Char) :
    stringChars steps (s.flatMap escape ++ '"' :: rest) = .ok (s, rest) := by
  induction s generalizing steps with
  | nil =>
    obtain ⟨more, rfl⟩ := Nat.exists_eq_add_of_lt h
    rfl
  | cons c s ih =>
    obtain ⟨more, rfl⟩ := Nat.exists_eq_add_of_lt h
    rw [List.flatMap_cons, List.append_assoc, stringChars_escape, ih (Nat.lt_of_succ_lt_succ h)]
    rfl

theorem length_le_length_flatMap_escape (s : List Char) : s.length ≤ (s.flatMap escape).length := by
  induction s with
  | nil => exact Nat.le_refl 0
  | cons c s ih =>
    have hc : 1 ≤ (escape c).length := by
      unfold escape
      split_ifs <;> simp
    rw [List.flatMap_cons, List.length_append, List.length_cons]
    omega

theorem stringBody_text (s : String) (rest : List Char) :
    stringBody (s.toList.flatMap escape ++ '"' :: rest) = .ok (s, rest) := by
  have hlength := length_le_length_flatMap_escape s.toList
  refine Decoded.bind_eq_ok_iff.2 ⟨(s.toList, rest), stringChars_text ?_ rest, ?_⟩
  · rw [List.length_append, List.length_cons]
    omega
  · dsimp only
    rw [String.ofList_toList]

/-! ### Arrays and objects -/

/-- A text that starts like a value, and with `n` only where it is `null`. -/
def Starts (v : Json) : Prop :=
  ∃ c cs, v.text = c :: cs ∧ isSpace c = false ∧ c ≠ ',' ∧ c ≠ ']' ∧ (c = 'n' → v = .null)

/-- The reader gives `a` from the text of a value, whatever follows, and the text starts like one. -/
structure Reads {α : Type} (read : Reader α) (v : Json) (a : α) : Prop where
  starts : Starts v
  reads {rest : List Char} (h : Ended rest) : read (v.text ++ rest) = .ok (a, rest)

theorem skipSpace_cons {c : Char} (h : isSpace c = false) (cs : List Char) :
    skipSpace (c :: cs) = c :: cs := by
  rw [skipSpace, List.dropWhile_cons_of_neg (by simp [h])]

theorem Starts.skipSpace {v : Json} (h : Starts v) (rest : List Char) :
    skipSpace (v.text ++ rest) = v.text ++ rest := by
  obtain ⟨c, cs, hv, hspace, -⟩ := h
  rw [hv, List.cons_append, skipSpace_cons hspace]

theorem ended_nil : Ended [] := nofun

theorem ended_cons {c : Char} (h : c = ',' ∨ c = ']' ∨ c = '\x7d') (cs : List Char) :
    Ended (c :: cs) := by
  intro c' cs' he
  obtain ⟨rfl, -⟩ := List.cons.inj he
  exact h

theorem ended_moreItemsText (vs : List Json) (rest : List Char) :
    Ended (moreItemsText vs ++ rest) := by
  cases vs with
  | nil => exact ended_cons (.inr (.inl rfl)) _
  | cons v vs => exact ended_cons (.inl rfl) _

theorem ended_moreMembersText (ms : List (String × Json)) (rest : List Char) :
    Ended (moreMembersText ms ++ rest) := by
  cases ms with
  | nil => exact ended_cons (.inr (.inr rfl)) _
  | cons m ms => exact ended_cons (.inl rfl) _

/-- An array starts with the text of an item. -/
theorem nextItem_first {v : Json} (h : Starts v) (rest : List Char) :
    nextItem true (v.text ++ rest) = .ok (true, v.text ++ rest) := by
  rw [nextItem, h.skipSpace]
  obtain ⟨c, cs, hv, -, hcomma, hclose, -⟩ := h
  rw [hv, List.cons_append]
  split
  case h_1 heq => cases heq
  case h_2 heq => exact absurd (List.cons.inj heq).1 hclose
  case h_3 heq => exact absurd (List.cons.inj heq).1 hcomma
  case h_4 => rfl

/-- An array goes on, behind a comma, with the text of an item. -/
theorem nextItem_comma {v : Json} (h : Starts v) (rest : List Char) :
    nextItem false (',' :: (v.text ++ rest)) = .ok (true, v.text ++ rest) := by
  rw [nextItem, skipSpace_cons (by decide)]
  simp only [Bool.false_eq_true, if_false]
  rw [h.skipSpace]
  obtain ⟨c, cs, hv, -, -, hclose, -⟩ := h
  rw [hv, List.cons_append]
  split
  case h_1 heq => cases heq
  case h_2 heq => exact absurd (List.cons.inj heq).1 hclose
  case h_3 => rfl

section Items

variable {α : Type} {read : Reader α} {d : Decoder α} {vs : List Json} {as : List α}

/-- A step reads an item as the decoder does, and the last step reads the bracket. -/
theorem itemsFrom_moreItemsText (hvs : ∀ v ∈ vs, ∀ a, d.ofJson v = .ok a → Reads read v a)
    (has : vs.mapM d.ofJson = .ok as) {steps : Nat} (h : vs.length < steps) (rest : List Char) :
    itemsFrom read steps false (moreItemsText vs ++ rest) = .ok (as, rest) := by
  induction vs generalizing steps as with
  | nil =>
    obtain ⟨more, rfl⟩ := Nat.exists_eq_add_of_lt h
    obtain rfl := Except.ok.inj has
    rfl
  | cons v vs ih =>
    obtain ⟨more, rfl⟩ := Nat.exists_eq_add_of_lt h
    rw [List.forall_mem_cons] at hvs
    rw [List.mapM_cons] at has
    obtain ⟨a, ha, has⟩ := Decoded.bind_eq_ok_iff.1 has
    obtain ⟨as, hrest, has⟩ := Decoded.bind_eq_ok_iff.1 has
    obtain rfl := Except.ok.inj has
    have hv := hvs.1 a ha
    have hnext := nextItem_comma hv.starts (moreItemsText vs ++ rest)
    have hread := hv.reads (ended_moreItemsText vs rest)
    rw [moreItemsText, List.cons_append, List.append_assoc, itemsFrom]
    refine Decoded.bind_eq_ok_iff.2 ⟨_, hnext, Decoded.bind_eq_ok_iff.2 ⟨_, hread, ?_⟩⟩
    exact Decoded.bind_eq_ok_iff.2 ⟨_, ih hvs.2 hrest (Nat.lt_of_succ_lt_succ h), rfl⟩

theorem length_lt_length_moreItemsText (vs : List Json) :
    vs.length < (moreItemsText vs).length := by
  induction vs with
  | nil => exact Nat.zero_lt_one
  | cons v vs ih =>
    rw [moreItemsText, List.length_cons, List.length_cons, List.length_append]
    omega

theorem items_itemsText (hvs : ∀ v ∈ vs, ∀ a, d.ofJson v = .ok a → Reads read v a)
    (has : vs.mapM d.ofJson = .ok as) (rest : List Char) :
    items read (itemsText vs ++ rest) = .ok (as, rest) := by
  cases vs with
  | nil =>
    obtain rfl := Except.ok.inj has
    rfl
  | cons v vs =>
    rw [List.forall_mem_cons] at hvs
    rw [List.mapM_cons] at has
    obtain ⟨a, ha, has⟩ := Decoded.bind_eq_ok_iff.1 has
    obtain ⟨as, hrest, has⟩ := Decoded.bind_eq_ok_iff.1 has
    obtain rfl := Except.ok.inj has
    have hv := hvs.1 a ha
    have hnext := nextItem_first hv.starts (moreItemsText vs ++ rest)
    have hread := hv.reads (ended_moreItemsText vs rest)
    have hlength := length_lt_length_moreItemsText vs
    rw [itemsText, List.append_assoc, items, itemsFrom]
    refine Decoded.bind_eq_ok_iff.2 ⟨_, hnext, Decoded.bind_eq_ok_iff.2 ⟨_, hread, ?_⟩⟩
    refine Decoded.bind_eq_ok_iff.2 ⟨_, itemsFrom_moreItemsText hvs.2 hrest ?_ rest, rfl⟩
    rw [List.length_append, List.length_append]
    omega

end Items

section Members

variable {σ : Type} {member : σ → String → Reader σ} {step : σ → String × Json → Decoded σ}
  {ms : List (String × Json)} {s s' : σ}

/-- The same for members, if `member` reads each of them as `step` says. -/
theorem membersFrom_moreMembersText
    (hms : ∀ m ∈ ms, ∀ s s', step s m = .ok s' → ∀ {rest : List Char}, Ended rest →
      member s m.1 (':' :: (m.2.text ++ rest)) = .ok (s', rest))
    (hs : ms.foldlM step s = .ok s') {steps : Nat} (h : ms.length < steps) (rest : List Char) :
    membersFrom member steps false s (moreMembersText ms ++ rest) = .ok (s', rest) := by
  induction ms generalizing steps s with
  | nil =>
    obtain ⟨more, rfl⟩ := Nat.exists_eq_add_of_lt h
    obtain rfl := Except.ok.inj hs
    rfl
  | cons m ms ih =>
    obtain ⟨more, rfl⟩ := Nat.exists_eq_add_of_lt h
    rw [List.forall_mem_cons] at hms
    obtain ⟨s₁, hm, hs⟩ := Decoded.bind_eq_ok_iff.1 hs
    have hkey := stringBody_text m.1 (':' :: (m.2.text ++ (moreMembersText ms ++ rest)))
    have hread := hms.1 s s₁ hm (ended_moreMembersText ms rest)
    have hrest := ih hms.2 hs (Nat.lt_of_succ_lt_succ h)
    simp only [moreMembersText, stringText, List.cons_append, List.append_assoc, List.nil_append]
    refine Decoded.bind_eq_ok_iff.2 ⟨(true, _), rfl, Decoded.bind_eq_ok_iff.2 ⟨_, hkey, ?_⟩⟩
    exact Decoded.bind_eq_ok_iff.2 ⟨_, hread, hrest⟩

theorem length_lt_length_moreMembersText (ms : List (String × Json)) :
    ms.length < (moreMembersText ms).length := by
  induction ms with
  | nil => exact Nat.zero_lt_one
  | cons m ms ih =>
    rw [moreMembersText, List.length_cons, List.length_cons, List.length_append, List.length_cons,
      List.length_append]
    omega

theorem members_membersText
    (hms : ∀ m ∈ ms, ∀ s s', step s m = .ok s' → ∀ {rest : List Char}, Ended rest →
      member s m.1 (':' :: (m.2.text ++ rest)) = .ok (s', rest))
    (hs : ms.foldlM step s = .ok s') (rest : List Char) :
    members member s (membersText ms ++ rest) = .ok (s', rest) := by
  cases ms with
  | nil =>
    obtain rfl := Except.ok.inj hs
    rfl
  | cons m ms =>
    rw [List.forall_mem_cons] at hms
    obtain ⟨s₁, hm, hs⟩ := Decoded.bind_eq_ok_iff.1 hs
    have hkey := stringBody_text m.1 (':' :: (m.2.text ++ (moreMembersText ms ++ rest)))
    have hread := hms.1 s s₁ hm (ended_moreMembersText ms rest)
    have hlength := length_lt_length_moreMembersText ms
    simp only [membersText, stringText, List.cons_append, List.append_assoc, List.nil_append]
    refine Decoded.bind_eq_ok_iff.2 ⟨(true, _), rfl, Decoded.bind_eq_ok_iff.2 ⟨_, hkey, ?_⟩⟩
    refine Decoded.bind_eq_ok_iff.2 ⟨_, hread, membersFrom_moreMembersText hms.2 hs ?_ _⟩
    simp only [List.length_append, List.length_cons]
    omega

end Members

/-- Members that are decoded in order and then inserted can be inserted one by one. -/
theorem foldlM_insert {α : Type} {d : Decoder α} {ms : List (String × Json)}
    {entries : List (String × α)} (h : d.entriesOfJson ms = .ok entries) (start : Dict α) :
    ms.foldlM (fun dict m => d.ofJson m.2 >>= fun a => .ok (dict.insert m.1 a)) start =
      .ok (entries.foldl (fun dict e => dict.insert e.1 e.2) start) := by
  induction ms generalizing entries start with
  | nil =>
    obtain rfl := Except.ok.inj h
    rfl
  | cons m ms ih =>
    obtain ⟨a, ha, h⟩ := Decoded.bind_eq_ok_iff.1 h
    obtain ⟨entries, hrest, h⟩ := Decoded.bind_eq_ok_iff.1 h
    obtain rfl := Except.ok.inj h
    exact Decoded.bind_eq_ok_iff.2
      ⟨_, Decoded.bind_eq_ok_iff.2 ⟨a, ha, rfl⟩, ih hrest (start.insert m.1 a)⟩

theorem dictionary_membersText {α : Type} {read : Reader α} {d : Decoder α}
    {ms : List (String × Json)} (hms : ∀ m ∈ ms, ∀ a, d.ofJson m.2 = .ok a → Reads read m.2 a)
    {entries : List (String × α)} (h : d.entriesOfJson ms = .ok entries) (rest : List Char) :
    dictionary read (membersText ms ++ rest) = .ok (Dict.ofList entries, rest) := by
  refine members_membersText (fun m hm s s' hs rest hrest => ?_) (foldlM_insert h .empty) rest
  obtain ⟨a, ha, hs⟩ := Decoded.bind_eq_ok_iff.1 hs
  obtain rfl := Except.ok.inj hs
  refine Decoded.bind_eq_ok_iff.2 ⟨_, rfl, ?_⟩
  exact Decoded.bind_eq_ok_iff.2 ⟨_, (hms m hm a ha).reads hrest, rfl⟩

/-! ### Values -/

theorem value_number {c : Char} (h : c = '-' ∨ c.isDigit = true) (depth : Nat) (cs : List Char) :
    value depth (c :: cs) = number (c :: cs) >>= fun r => .ok (.number r.1, r.2) := by
  rw [value.eq_def]
  rcases h with rfl | h
  · rfl
  · obtain ⟨d, hd, rfl⟩ := exists_digit h
    interval_cases d <;> rfl

theorem starts_of_number {c : Char} (h : c = '-' ∨ c.isDigit = true) :
    isSpace c = false ∧ c ≠ ',' ∧ c ≠ ']' ∧ c ≠ 'n' := by
  rcases h with rfl | h
  · decide
  · obtain ⟨d, hd, rfl⟩ := exists_digit h
    revert d
    decide

theorem starts_of_plain {depth : Nat} {v : Json} (h : Plain depth v) : Starts v := by
  cases h with
  | null => exact ⟨_, _, rfl, by decide, by decide, by decide, fun _ => rfl⟩
  | bool b => cases b <;> exact ⟨_, _, rfl, by decide⟩
  | integer n =>
    obtain ⟨c, cs, hcons, hc⟩ := exists_cons_integerText n.val
    obtain ⟨hspace, hcomma, hclose, hn⟩ := starts_of_number hc
    exact ⟨c, cs, hcons, hspace, hcomma, hclose, fun he => absurd he hn⟩
  | string | array | object =>
    exact ⟨_, _, rfl, by decide, by decide, by decide, fun h => absurd h (by decide)⟩

/-- A plain value is read back from its text. -/
theorem reads_value {depth : Nat} {v : Json} (h : Plain depth v) : Reads (value depth) v v := by
  refine ⟨starts_of_plain h, fun {rest} hrest => ?_⟩
  induction h generalizing rest with
  -- scalars, then containers, whose loops take the induction hypothesis for their contents
  | null => rw [value.eq_def]; rfl
  | bool b => cases b <;> rw [value.eq_def] <;> rfl
  | @integer depth n =>
    have hnumber := number_integerText n hrest
    obtain ⟨c, cs, hcons, hc⟩ := exists_cons_integerText n.val
    show value depth (integerText n.val ++ rest) = _
    rw [hcons, List.cons_append] at hnumber ⊢
    rw [value_number hc, hnumber]
    rfl
  | string s =>
    have hbody := stringBody_text s rest
    rw [value.eq_def, text, stringText, List.cons_append, List.append_assoc]
    exact Decoded.bind_eq_ok_iff.2 ⟨_, hbody, rfl⟩
  | @array depth vs h ih =>
    have hvs : ∀ v ∈ vs, ∀ a, Decoder.json.ofJson v = .ok a → Reads (value depth) v a := by
      rintro v hv _ ⟨⟩
      exact ⟨starts_of_plain (h v hv), ih v hv⟩
    rw [value.eq_def]
    exact Decoded.bind_eq_ok_iff.2
      ⟨_, items_itemsText hvs (Decoder.ofJson_list_json vs) rest, rfl⟩
  | @object depth ms hkeys h ih =>
    have hms : ∀ m ∈ ms, ∀ a, Decoder.json.ofJson m.2 = .ok a → Reads (value depth) m.2 a := by
      rintro m hm _ ⟨⟩
      exact ⟨starts_of_plain (h m hm), ih m hm⟩
    rw [value.eq_def]
    refine Decoded.bind_eq_ok_iff.2
      ⟨_, dictionary_membersText hms (Decoder.entriesOfJson_json ms) rest, ?_⟩
    dsimp only
    rw [Dict.entries_ofList hkeys]

/-- A reader that gets a value from its compact text gets it from the text as a whole. -/
theorem document_compact {α : Type} {read : Reader α} {v : Json} {a : α}
    (h : read (v.text ++ []) = .ok (a, [])) : document read v.compact = .ok a := by
  rw [List.append_nil] at h
  refine Decoded.bind_eq_ok_iff.2 ⟨(a, []), ?_, rfl⟩
  rw [compact, String.toList_ofList, h]

end Reader

open Reader

/-- A plain value is what its compact text holds. -/
theorem ofText_compact {v : Json} (h : Plain maxDepth v) : ofText v.compact = .ok v :=
  document_compact ((reads_value h).reads ended_nil)

end ListQuery.Json
