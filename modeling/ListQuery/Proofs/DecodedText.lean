import ListQuery.Proofs.Records
import ListQuery.Proofs.SkippedText

/-!
# Decoding a value and decoding its text

A decoder reads values in two ways, from a text and from a JSON value, and the two are programmed
apart. On the compact text of a plain value they agree (`Decoder.Agrees`): what is decoded from the
value is decoded from its text, with whatever follows left over. The law is stated for each scalar
and for each way of putting decoders together, so that it holds of a configuration or a request by
going along its decoder.

Nothing is said of values that are refused, since a text and a value are refused for different
reasons.
-/

namespace ListQuery.Decoder

open Json Json.Reader

variable {α β σ : Type}

/-- What is decoded from a plain value is decoded from its text, and what follows is left over. -/
structure Agrees (d : Decoder α) : Prop where
  ofChars {depth : Nat} {v : Json} {a : α} (hv : Plain depth v) (h : d.ofJson v = .ok a)
    {rest : List Char} (hrest : Ended rest) : d.ofChars depth (v.text ++ rest) = .ok (a, rest)

theorem Agrees.reads {d : Decoder α} (hd : d.Agrees) {depth : Nat} {v : Json} (hv : Plain depth v)
    {a : α} (h : d.ofJson v = .ok a) : Reads (d.ofChars depth) v a :=
  ⟨starts_of_plain hv, hd.ofChars hv h⟩

/-- The same for a text as a whole. -/
theorem Agrees.ofText_compact {d : Decoder α} (hd : d.Agrees) {v : Json} (hv : Plain maxDepth v)
    {a : α} (h : d.ofJson v = .ok a) : d.ofText v.compact = .ok a :=
  document_compact (hd.ofChars hv h ended_nil)

/-! ### Scalars -/

theorem agrees_json : json.Agrees where
  ofChars hv h _ hrest := by
    obtain rfl := Except.ok.inj h
    exact (reads_value hv).reads hrest

theorem agrees_string : string.Agrees where
  ofChars {depth v a} hv h rest hrest := by
    cases hv with
    | string s =>
      obtain rfl := Except.ok.inj h
      rw [text, stringText, List.cons_append, List.append_assoc]
      exact stringBody_text s rest
    | null | bool | integer | array | object => cases h

theorem agrees_unsigned : unsigned.Agrees where
  ofChars {depth v k} hv h rest hrest := by
    cases hv with
    | integer n =>
      have hnumber := number_integerText n hrest
      obtain ⟨c, cs, hcons, hc⟩ := exists_cons_integerText n.val
      show unsigned.ofChars depth (integerText n.val ++ rest) = _
      rw [hcons, List.cons_append] at hnumber ⊢
      simp only [unsigned, skipSpace_cons (starts_of_number hc).1, if_pos hc]
      exact Decoded.bind_eq_ok_iff.2 ⟨_, hnumber, Decoded.bind_eq_ok_iff.2 ⟨k, h, rfl⟩⟩
    | null | bool | string | array | object => cases h

theorem agrees_unit : unit.Agrees where
  ofChars {depth v a} hv h rest hrest := by
    cases hv with
    | null => rfl
    | bool | integer | string | array | object => cases h

/-! ### Decoders that are put together -/

theorem Agrees.map {d : Decoder α} (hd : d.Agrees) (f : α → β) : (d.map f).Agrees where
  ofChars hv h _ hrest := by
    obtain ⟨a, ha, rfl⟩ := Decoded.map_eq_ok_iff.1 h
    exact Decoded.map_eq_ok_iff.2 ⟨_, hd.ofChars hv ha hrest, rfl⟩

theorem Agrees.member {d : Decoder α} (hd : d.Agrees) {key : String} {set : α → σ → σ} :
    (Member.optional key d set).set.Agrees :=
  hd.map set

theorem Agrees.list {d : Decoder α} (hd : d.Agrees) : d.list.Agrees where
  ofChars {depth v as} hv h rest hrest := by
    cases hv with
    | array hvs => exact items_itemsText (fun v hv a ha => hd.reads (hvs v hv) ha) h rest
    | null | bool | integer | string | object => cases h

theorem Agrees.dictionary {d : Decoder α} (hd : d.Agrees) : d.dictionary.Agrees where
  ofChars {depth v dict} hv h rest hrest := by
    cases hv with
    | object hkeys hms =>
      obtain ⟨entries, hentries, rfl⟩ := Decoded.map_eq_ok_iff.1 h
      exact dictionary_membersText (fun m hm a ha => hd.reads (hms m hm) ha) hentries rest
    | null | bool | integer | string | array => cases h

theorem Agrees.optional {d : Decoder α} (hd : d.Agrees) : d.optional.Agrees where
  ofChars {depth v b} hv h rest hrest := by
    by_cases hnull : v = .null
    · subst hnull
      obtain rfl := Except.ok.inj h
      rfl
    · rw [ofJson_optional d hnull] at h
      obtain ⟨a, ha, rfl⟩ := Decoded.map_eq_ok_iff.1 h
      have hread := hd.ofChars hv ha hrest
      have hstarts := starts_of_plain hv
      simp only [Decoder.optional, hstarts.skipSpace]
      obtain ⟨c, cs, hcons, -, -, -, hn⟩ := hstarts
      rw [hcons, List.cons_append] at hread ⊢
      -- only `null` starts with the letter that the decoder looks for
      split
      · rename_i heq
        exact absurd (hn (List.cons.inj heq).1) hnull
      · exact Decoded.map_eq_ok_iff.2 ⟨_, hread, rfl⟩

/-- The object form of a choice has one member, which is `null` under the name. -/
theorem exists_name_of_choice {names : List (String × α)} {ms : List (String × Json)} {a : α}
    (h : (choice names).ofJson (.object ms) = .ok a) :
    ∃ name, ms = [(name, .null)] ∧ chosen names name = .ok a := by
  cases ms with
  | nil => cases h
  | cons m ms =>
    cases ms with
    | cons => cases h
    | nil =>
      obtain ⟨name, v⟩ := m
      obtain ⟨b, hb, h⟩ := Decoded.bind_eq_ok_iff.1 h
      obtain ⟨⟨⟩, hunit, h⟩ := Decoded.bind_eq_ok_iff.1 h
      obtain rfl := Except.ok.inj h
      cases v with
      | null => exact ⟨name, rfl, hb⟩
      | bool | number | string | array | object => cases hunit

theorem agrees_choice (names : List (String × α)) : (choice names).Agrees where
  ofChars {depth v a} hv h rest hrest := by
    cases hv with
    | string name =>
      have hbody := stringBody_text name rest
      rw [text, stringText, List.cons_append, List.append_assoc]
      exact Decoded.bind_eq_ok_iff.2 ⟨_, hbody, Decoded.bind_eq_ok_iff.2 ⟨a, h, rfl⟩⟩
    | object _ hms =>
      obtain ⟨name, rfl, hchosen⟩ := exists_name_of_choice h
      have hname := stringBody_text name (':' :: (Json.null.text ++ '\x7d' :: rest))
      simp only [text, membersText, moreMembersText, stringText, List.cons_append,
        List.append_assoc, List.nil_append] at hname ⊢
      refine Decoded.bind_eq_ok_iff.2 ⟨_, hname, Decoded.bind_eq_ok_iff.2 ⟨a, hchosen, ?_⟩⟩
      have hnull := agrees_unit.ofChars (hms _ List.mem_cons_self) rfl
        (ended_moreMembersText [] rest)
      refine Decoded.bind_eq_ok_iff.2 ⟨_, rfl, ?_⟩
      exact Decoded.bind_eq_ok_iff.2 ⟨_, hnull, rfl⟩
    | null | bool | integer | array => cases h

/-! ### Records -/

section Record

variable {ms : List (Member σ)}

/-- The members of an object are taken one by one. -/
theorem membersOfJson_eq_foldlM (s : Draft σ) (vs : List (String × Json)) :
    membersOfJson ms s vs = vs.foldlM (fun s v => membersOfJson ms s [v]) s := by
  induction vs generalizing s with
  | nil => rfl
  | cons v vs ih =>
    obtain ⟨key, v⟩ := v
    rw [List.foldlM_cons, membersOfJson, membersOfJson]
    cases findMember ms key with
    | none => exact ih s
    | some m =>
      dsimp only
      split
      · rfl
      · rw [bind_assoc]
        exact bind_congr fun set => ih _

variable (hms : ∀ m ∈ ms, m.set.Agrees)
include hms

/-- A member of an object is taken from its text as from its value, or passed over. -/
theorem memberOfChars_text {depth : Nat} {s s' : Draft σ} {key : String} {v : Json}
    (hv : Plain depth v) (h : membersOfJson ms s [(key, v)] = .ok s') {rest : List Char}
    (hrest : Ended rest) :
    memberOfChars ms depth s key (':' :: (v.text ++ rest)) = .ok (s', rest) := by
  rw [membersOfJson] at h
  rw [memberOfChars]
  cases hm : findMember ms key with
  | none =>
    simp only [hm] at h ⊢
    obtain rfl := Except.ok.inj h
    refine Decoded.bind_eq_ok_iff.2 ⟨_, rfl, ?_⟩
    exact Decoded.bind_eq_ok_iff.2 ⟨rest, skipValue_text hv hrest, rfl⟩
  | some m =>
    simp only [hm] at h ⊢
    split at h
    · cases h
    · rename_i hseen
      obtain ⟨set, hset, h⟩ := Decoded.bind_eq_ok_iff.1 h
      obtain rfl := Except.ok.inj h
      have hread := (hms m (mem_of_findMember hm)).ofChars hv hset hrest
      rw [if_neg hseen]
      exact Decoded.bind_eq_ok_iff.2 ⟨_, rfl, Decoded.bind_eq_ok_iff.2 ⟨_, hread, rfl⟩⟩

omit hms in
/-- Members that are left out at the end of an array. -/
theorem itemsOfChars_close {name : String} {count length depth index : Nat} {s s' : σ}
    (h : itemsOfJson name count length ms [] s = .ok s') (rest : List Char) :
    itemsOfChars name count depth ms index s (']' :: rest) = .ok (s', ']' :: rest) := by
  induction ms generalizing s with
  | nil =>
    obtain rfl := Except.ok.inj h
    rfl
  | cons m ms ih =>
    rw [itemsOfJson] at h
    split at h
    · rename_i hoptional
      refine Decoded.bind_eq_ok_iff.2 ⟨(false, ']' :: rest), rfl, ?_⟩
      simp only [Bool.false_eq_true, if_false, if_pos hoptional]
      exact ih h
    · cases h

theorem itemsOfChars_moreItemsText {name : String} {count length depth index : Nat} {vs : List Json}
    (hvs : ∀ v ∈ vs, Plain depth v) {s s' : σ}
    (h : itemsOfJson name count length ms vs s = .ok s') (hindex : index ≠ 0) (rest : List Char) :
    itemsOfChars name count depth ms index s (moreItemsText vs ++ rest) =
      .ok (s', ']' :: rest) := by
  induction vs generalizing ms index s with
  | nil => exact itemsOfChars_close h rest
  | cons v vs ih =>
    rw [List.forall_mem_cons] at hvs
    cases ms with
    | nil => cases h
    | cons m ms =>
      rw [List.forall_mem_cons] at hms
      obtain ⟨set, hset, h⟩ := Decoded.bind_eq_ok_iff.1 h
      have hnext := nextItem_comma (starts_of_plain hvs.1) (moreItemsText vs ++ rest)
      have hread := hms.1.ofChars hvs.1 hset (ended_moreItemsText vs rest)
      rw [moreItemsText, List.cons_append, List.append_assoc, itemsOfChars, beq_false_of_ne hindex]
      refine Decoded.bind_eq_ok_iff.2 ⟨_, hnext, Decoded.bind_eq_ok_iff.2 ⟨_, hread, ?_⟩⟩
      exact ih hms.2 hvs.2 h (Nat.succ_ne_zero index)

/-- The items of an array fill the members in their order. -/
theorem itemsOfChars_itemsText {name : String} {count length depth : Nat} {vs : List Json}
    (hvs : ∀ v ∈ vs, Plain depth v) {s s' : σ}
    (h : itemsOfJson name count length ms vs s = .ok s') (rest : List Char) :
    itemsOfChars name count depth ms 0 s (itemsText vs ++ rest) = .ok (s', ']' :: rest) := by
  cases vs with
  | nil => exact itemsOfChars_close h rest
  | cons v vs =>
    rw [List.forall_mem_cons] at hvs
    cases ms with
    | nil => cases h
    | cons m ms =>
      rw [List.forall_mem_cons] at hms
      obtain ⟨set, hset, h⟩ := Decoded.bind_eq_ok_iff.1 h
      have hnext := nextItem_first (starts_of_plain hvs.1) (moreItemsText vs ++ rest)
      have hread := hms.1.ofChars hvs.1 hset (ended_moreItemsText vs rest)
      rw [itemsText, List.append_assoc]
      refine Decoded.bind_eq_ok_iff.2 ⟨_, hnext, Decoded.bind_eq_ok_iff.2 ⟨_, hread, ?_⟩⟩
      exact itemsOfChars_moreItemsText hms.2 hvs.2 h Nat.one_ne_zero rest

/-- A record has two forms, an object and an array, and other keys of an object are passed over. -/
theorem Agrees.record (name : String) (start : σ) : (record name ms start).Agrees where
  ofChars {depth v s} hv h rest hrest := by
    cases hv with
    | array hvs =>
      have hitems := itemsOfChars_itemsText hms hvs h rest
      exact Decoded.bind_eq_ok_iff.2 ⟨_, hitems, Decoded.bind_eq_ok_iff.2 ⟨((), rest), rfl, rfl⟩⟩
    | @object _ vs hkeys hvs =>
      obtain ⟨draft, hdraft, hfinish⟩ := Decoded.bind_eq_ok_iff.1 h
      rw [membersOfJson_eq_foldlM] at hdraft
      -- the loop over the text takes the steps of the loop over the values
      have hmember : ∀ v ∈ vs, ∀ s s', membersOfJson ms s [v] = .ok s' → ∀ {rest}, Ended rest →
          memberOfChars ms _ s v.1 (':' :: (v.2.text ++ rest)) = .ok (s', rest) :=
        fun v hv _ _ hs _ hrest => memberOfChars_text hms (hvs v hv) hs hrest
      have hmembers := members_membersText hmember hdraft rest
      refine Decoded.bind_eq_ok_iff.2 ⟨_, hmembers, Decoded.bind_eq_ok_iff.2 ⟨s, hfinish, rfl⟩⟩
    | null | bool | integer | string => cases h

end Record

/-! ### Dictionaries and lists of plain values -/

theorem ofText_compact_dictionary {v : Json} {dict : Dict Json} (hv : Plain maxDepth v)
    (h : (dictionary json).ofJson v = .ok dict) : (dictionary json).ofText v.compact = .ok dict :=
  agrees_json.dictionary.ofText_compact hv h

theorem ofText_compact_list {v : Json} {vs : List Json} (hv : Plain maxDepth v)
    (h : (list json).ofJson v = .ok vs) : (list json).ofText v.compact = .ok vs :=
  agrees_json.list.ofText_compact hv h

end ListQuery.Decoder
