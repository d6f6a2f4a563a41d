import ListQuery.Json.Decoder.Record
import Mathlib.Data.List.DropRight

/-!
# What decoding a record gives

A record is decoded member by member, in four loops: from the characters of an object or an array,
and from an object or an array that is there as a whole. This module says once what the loops do, so
that nothing about one record has to open them.

Two statements come out of it. In an object whose keys differ, each part of the record comes from
the member under its key and from nothing else (`Carries.fills`). And what holds of the start and is
kept by every member holds of every record that is decoded, in whichever of the four ways
(`yields_record`).
-/

namespace ListQuery.Decoder

open Json.Reader

variable {α β σ : Type}

/-! ### Objects with different keys -/

theorem mem_of_findMember {ms : List (Member σ)} {key : String} {m : Member σ}
    (h : findMember ms key = some m) : m ∈ ms :=
  List.mem_of_find?_eq_some h

theorem key_of_findMember {ms : List (Member σ)} {key : String} {m : Member σ}
    (h : findMember ms key = some m) : m.key = key := by
  rw [findMember] at h
  exact of_decide_eq_true (List.find?_some h :)

/-- A record after one more member of an object. -/
def setMember (ms : List (Member σ)) (s : σ) (entry : String × Json) : Decoded σ :=
  match findMember ms entry.1 with
  | some m => do
    let set ← m.set.ofJson entry.2
    .ok (set s)
  | none => .ok s

theorem setMember_eq_ok_of_findMember {ms : List (Member σ)} {s s' : σ} {key : String} {v : Json}
    {m : Member σ} (hm : findMember ms key = some m) :
    setMember ms s (key, v) = .ok s' ↔ ∃ f, m.set.ofJson v = .ok f ∧ f s = s' := by
  simp only [setMember, hm, Decoded.bind_eq_ok_iff, Except.ok.injEq]

/-- A finished draft is the record that the draft holds. -/
theorem eq_of_finish {ms : List (Member σ)} {d : Draft σ} {s : σ}
    (h : d.finish ms = .ok s) : d.value = s := by
  rw [Draft.finish] at h
  split at h
  · cases h
  · exact Except.ok.inj h

theorem finish_of_no_required {ms : List (Member σ)} (h : ∀ m ∈ ms, m.presence ≠ .required)
    (d : Draft σ) : d.finish ms = .ok d.value := by
  have hnone : ms.find? (fun m => m.presence == .required && !d.seen.contains m.key) = none :=
    List.find?_eq_none.2 fun m hm => by simp [h m hm]
  rw [Draft.finish, hnone]

/-- With different keys nothing depends on the keys that a draft has already. -/
theorem map_value_membersOfJson (ms : List (Member σ)) {vs : List (String × Json)} {d : Draft σ}
    (hvs : (Entries.keys vs).Nodup) (hseen : ∀ key ∈ Entries.keys vs, key ∉ d.seen) :
    (membersOfJson ms d vs).map Draft.value = vs.foldlM (setMember ms) d.value := by
  induction vs generalizing d with
  | nil => rfl
  | cons entry rest ih =>
    obtain ⟨key, v⟩ := entry
    rw [Entries.keys_cons, List.nodup_cons] at hvs
    rw [Entries.keys_cons, List.forall_mem_cons] at hseen
    rw [membersOfJson, List.foldlM_cons, setMember]
    cases hm : findMember ms key with
    | none => exact ih hvs.2 hseen.2
    | some m =>
      simp only [List.contains_eq_mem, hseen.1, decide_false, Bool.false_eq_true, if_false]
      cases m.set.ofJson v with
      | error e => rfl
      | ok set =>
        refine ih hvs.2 fun k hk => ?_
        rw [List.mem_cons, not_or]
        exact ⟨fun he => hvs.1 (he ▸ hk), hseen.2 k hk⟩

/-- A record without required members is filled by the members of an object in their order. -/
theorem record_ofJson_object (name : String) {ms : List (Member σ)}
    (hms : ∀ m ∈ ms, m.presence ≠ .required) (start : σ) {vs : List (String × Json)}
    (hvs : (Entries.keys vs).Nodup) :
    (record name ms start).ofJson (.object vs) = vs.foldlM (setMember ms) start := by
  have hfold := map_value_membersOfJson ms (d := ⟨start, []⟩) hvs fun _ _ => List.not_mem_nil
  show (membersOfJson ms ⟨start, []⟩ vs >>= fun s => s.finish ms) = _
  rw [← hfold]
  cases membersOfJson ms ⟨start, []⟩ vs with
  | error e => rfl
  | ok d => exact finish_of_no_required hms d

/-- What a member gives to its part of a record: a member that is left out gives `default`. -/
inductive Fills (d : Decoder α) (default : α) : Option Json → α → Prop where
  | absent : Fills d default none default
  | given {v : Json} {a : α} (h : d.ofJson v = .ok a) : Fills d default (some v) a

/-- A member that leaves a part of the record as it is. -/
def Member.Keeps (m : Member σ) (part : σ → α) : Prop :=
  ∀ v f s, m.set.ofJson v = .ok f → part (f s) = part s

/-- A part of a record that one member sets and all others keep. -/
structure Carries (ms : List (Member σ)) (key : String) (d : Decoder α) (part : σ → α) : Prop where
  own : ∃ m, findMember ms key = some m ∧
    ∀ v f s, m.set.ofJson v = .ok f → d.ofJson v = .ok (part (f s))
  others : ∀ m ∈ ms, m.key = key ∨ m.Keeps part

@[simp] theorem Member.key_optional (key : String) (d : Decoder α) (set : α → σ → σ) :
    (Member.optional key d set).key = key := rfl

theorem Member.optional_set_ofJson {key : String} {d : Decoder α} {set : α → σ → σ} {v : Json}
    {f : σ → σ} :
    (Member.optional key d set).set.ofJson v = .ok f ↔ ∃ a, d.ofJson v = .ok a ∧ set a = f :=
  Decoded.map_eq_ok_iff

theorem Member.keeps_optional {key : String} {d : Decoder α} {set : α → σ → σ} {part : σ → β}
    (h : ∀ a s, part (set a s) = part s) : (Member.optional key d set).Keeps part := by
  intro v f s hf
  obtain ⟨a, -, rfl⟩ := Member.optional_set_ofJson.1 hf
  exact h a s

namespace Carries

variable {ms : List (Member σ)} {key : String} {d : Decoder α} {part : σ → α}

/-- An optional member sets the part that its setter writes. -/
theorem of_optional {set : α → σ → σ}
    (hfind : findMember ms key = some (.optional key d set)) (hset : ∀ a s, part (set a s) = a)
    (others : ∀ m ∈ ms, m.key = key ∨ m.Keeps part) : Carries ms key d part where
  own := by
    refine ⟨_, hfind, fun v f s hf => ?_⟩
    obtain ⟨a, ha, rfl⟩ := Member.optional_set_ofJson.1 hf
    rw [hset]
    exact ha
  others := others

theorem keep_setMember (h : Carries ms key d part) {k : String} {v : Json} {s s' : σ}
    (hk : k ≠ key) (hs : setMember ms s (k, v) = .ok s') : part s' = part s := by
  rw [setMember] at hs
  cases hm : findMember ms k with
  | none =>
    simp only [hm, Except.ok.injEq] at hs
    rw [hs]
  | some m =>
    obtain ⟨f, hf, rfl⟩ := (setMember_eq_ok_of_findMember hm).1 hs
    rcases h.others m (mem_of_findMember hm) with hkey | hkeep
    · exact absurd ((key_of_findMember hm).symm.trans hkey) hk
    · exact hkeep v f s hf

/-- In an object whose keys differ, the part comes from the member under its key. -/
theorem fills (h : Carries ms key d part) {vs : List (String × Json)}
    (hvs : (Entries.keys vs).Nodup) {s r : σ} (hr : vs.foldlM (setMember ms) s = .ok r) :
    Fills d (part s) (Entries.get? key vs) (part r) := by
  induction vs generalizing s with
  | nil =>
    obtain rfl : s = r := Except.ok.inj hr
    exact .absent
  | cons entry rest ih =>
    obtain ⟨k, v⟩ := entry
    rw [Entries.keys_cons, List.nodup_cons] at hvs
    obtain ⟨s', hs, hr⟩ := Decoded.bind_eq_ok_iff.1 hr
    have hrest := ih hvs.2 hr
    by_cases hk : k = key
    · subst hk
      -- the key does not come again, so the rest keeps what its member gave
      rw [Entries.get?_eq_none_iff.2 hvs.1] at hrest
      obtain ⟨m, hm, hown⟩ := h.own
      obtain ⟨f, hf, rfl⟩ := (setMember_eq_ok_of_findMember hm).1 hs
      rw [Entries.get?, if_pos rfl]
      generalize part r = a at hrest
      cases hrest
      exact .given (hown v f s hf)
    · rw [Entries.get?, if_neg hk, ← h.keep_setMember hk hs]
      exact hrest

end Carries

/-! ### What holds of everything decoded -/

/-- Everything that a decoder gives, from a text or from a value, satisfies `P`. -/
structure Yields (d : Decoder α) (P : α → Prop) : Prop where
  ofChars {depth : Nat} {cs rest : List Char} {a : α} (h : d.ofChars depth cs = .ok (a, rest)) : P a
  ofJson {v : Json} {a : α} (h : d.ofJson v = .ok a) : P a

theorem Yields.ofText {d : Decoder α} {P : α → Prop} (hd : d.Yields P) {text : String} {a : α}
    (h : d.ofText text = .ok a) : P a := by
  obtain ⟨⟨a', rest⟩, hread, hend⟩ := Decoded.bind_eq_ok_iff.1 h
  dsimp only at hend
  split at hend
  · obtain rfl := Except.ok.inj hend
    exact hd.ofChars hread
  · cases hend

theorem Yields.map {d : Decoder α} {P : α → Prop} {Q : β → Prop} {f : α → β} (hd : d.Yields P)
    (hf : ∀ a, P a → Q (f a)) : (d.map f).Yields Q where
  ofChars h := by
    obtain ⟨⟨a, rest⟩, ha, he⟩ := Decoded.map_eq_ok_iff.1 h
    obtain ⟨rfl, -⟩ := Prod.mk.inj he
    exact hf a (hd.ofChars ha)
  ofJson h := by
    obtain ⟨a, ha, rfl⟩ := Decoded.map_eq_ok_iff.1 h
    exact hf a (hd.ofJson ha)

theorem yields_true (d : Decoder α) : d.Yields fun _ => True := ⟨fun _ => trivial, fun _ => trivial⟩

/-- What is optional is `none`, or comes from a text or value that is not `null`. -/
theorem yields_optional {d : Decoder α} {P : α → Prop}
    (hchars : ∀ {depth cs rest a}, (∀ t, skipSpace cs ≠ 'n' :: t) →
      d.ofChars depth cs = .ok (a, rest) → P a)
    (hjson : ∀ {v a}, v ≠ .null → d.ofJson v = .ok a → P a) :
    d.optional.Yields fun b => ∀ a ∈ b, P a where
  ofChars {depth cs rest b} h := by
    have hskip : skipSpace (skipSpace cs) = skipSpace cs := List.dropWhile_idempotent _ cs
    simp only [optional] at h
    split at h
    · obtain ⟨⟨_, cs₁⟩, -, h⟩ := Decoded.bind_eq_ok_iff.1 h
      obtain ⟨rfl, -⟩ := Prod.mk.inj (Except.ok.inj h)
      exact nofun
    · rename_i hn
      obtain ⟨⟨a, cs₁⟩, ha, h⟩ := Decoded.map_eq_ok_iff.1 h
      obtain ⟨rfl, -⟩ := Prod.mk.inj h
      simpa using hchars (by rwa [hskip]) ha
  ofJson {v b} h := by
    by_cases hv : v = .null
    · rw [hv] at h
      obtain rfl := Except.ok.inj h
      exact nofun
    · rw [ofJson_optional d hv] at h
      obtain ⟨a, ha, rfl⟩ := Decoded.map_eq_ok_iff.1 h
      simpa using hjson hv ha

/-- The value of a text is `null` only if the text starts like `null`. -/
theorem ne_null_of_value {depth : Nat} {cs rest : List Char} {v : Json}
    (hcs : ∀ t, skipSpace cs ≠ 'n' :: t) (h : value depth cs = .ok (v, rest)) : v ≠ .null := by
  have hok {w : Json} {cs : List Char}
      (h : (.ok (w, cs) : Decoded (Json × List Char)) = .ok (v, rest)) (hw : w ≠ .null) :
      v ≠ .null := by
    obtain ⟨rfl, -⟩ := Prod.mk.inj (Except.ok.inj h)
    exact hw
  unfold value at h
  split at h
  case h_1 => cases h
  case h_2 hn => exact absurd hn (hcs _)
  case h_3 | h_4 | h_5 =>
    obtain ⟨_, -, h⟩ := Decoded.bind_eq_ok_iff.1 h
    exact hok h nofun
  case h_6 | h_7 =>
    split at h
    · cases h
    · obtain ⟨_, -, h⟩ := Decoded.bind_eq_ok_iff.1 h
      exact hok h nofun
  case h_8 =>
    split at h
    · obtain ⟨_, -, h⟩ := Decoded.bind_eq_ok_iff.1 h
      exact hok h nofun
    · cases h

/-- Members read one after another keep what each of them keeps. -/
theorem membersFrom_keeps {member : σ → String → Json.Reader σ} {P : σ → Prop}
    (hmember : ∀ {s s' key cs rest}, member s key cs = .ok (s', rest) → P s → P s')
    {steps : Nat} {first : Bool} {s s' : σ} {cs rest : List Char}
    (h : membersFrom member steps first s cs = .ok (s', rest)) (hs : P s) : P s' := by
  induction steps generalizing first s cs with
  | zero => cases h
  | succ steps ih =>
    obtain ⟨⟨more, cs₁⟩, -, h⟩ := Decoded.bind_eq_ok_iff.1 h
    cases more with
    | false =>
      obtain ⟨rfl, -⟩ := Prod.mk.inj (Except.ok.inj h)
      exact hs
    | true =>
      obtain ⟨⟨key, cs₂⟩, -, h⟩ := Decoded.bind_eq_ok_iff.1 h
      obtain ⟨⟨s₁, cs₃⟩, hstep, h⟩ := Decoded.bind_eq_ok_iff.1 h
      exact ih h (hmember hstep hs)

section Record

variable {ms : List (Member σ)} {P : σ → Prop}
  (hms : ∀ m ∈ ms, m.set.Yields fun f => ∀ s, P s → P (f s))
include hms

theorem memberOfChars_keeps {depth : Nat} {d d' : Draft σ} {key : String} {cs rest : List Char}
    (h : memberOfChars ms depth d key cs = .ok (d', rest)) (hd : P d.value) : P d'.value := by
  rw [memberOfChars] at h
  cases hm : findMember ms key with
  | none =>
    simp only [hm] at h
    obtain ⟨⟨_, cs₁⟩, -, h⟩ := Decoded.bind_eq_ok_iff.1 h
    obtain ⟨cs₂, -, h⟩ := Decoded.bind_eq_ok_iff.1 h
    obtain ⟨rfl, -⟩ := Prod.mk.inj (Except.ok.inj h)
    exact hd
  | some m =>
    simp only [hm] at h
    split at h
    · cases h
    · obtain ⟨⟨_, cs₁⟩, -, h⟩ := Decoded.bind_eq_ok_iff.1 h
      obtain ⟨⟨f, cs₂⟩, hf, h⟩ := Decoded.bind_eq_ok_iff.1 h
      obtain ⟨rfl, -⟩ := Prod.mk.inj (Except.ok.inj h)
      exact (hms m (mem_of_findMember hm)).ofChars hf _ hd

theorem itemsOfChars_keeps {name : String} {count depth index : Nat} {s s' : σ}
    {cs rest : List Char} (h : itemsOfChars name count depth ms index s cs = .ok (s', rest))
    (hs : P s) : P s' := by
  induction ms generalizing index s cs with
  | nil =>
    obtain ⟨rfl, -⟩ := Prod.mk.inj (Except.ok.inj h)
    exact hs
  | cons m ms ih =>
    rw [List.forall_mem_cons] at hms
    obtain ⟨⟨more, cs₁⟩, -, h⟩ := Decoded.bind_eq_ok_iff.1 h
    cases more with
    | true =>
      obtain ⟨⟨f, cs₂⟩, hf, h⟩ := Decoded.bind_eq_ok_iff.1 h
      exact ih hms.2 h (hms.1.ofChars hf s hs)
    | false =>
      simp only [Bool.false_eq_true, if_false] at h
      split at h
      · exact ih hms.2 h hs
      · cases h

theorem membersOfJson_keeps {d d' : Draft σ} {vs : List (String × Json)}
    (h : membersOfJson ms d vs = .ok d') (hd : P d.value) : P d'.value := by
  induction vs generalizing d with
  | nil =>
    obtain rfl := Except.ok.inj h
    exact hd
  | cons entry rest ih =>
    obtain ⟨key, v⟩ := entry
    rw [membersOfJson] at h
    cases hm : findMember ms key with
    | none =>
      simp only [hm] at h
      exact ih h hd
    | some m =>
      simp only [hm] at h
      split at h
      · cases h
      · obtain ⟨f, hf, h⟩ := Decoded.bind_eq_ok_iff.1 h
        exact ih h ((hms m (mem_of_findMember hm)).ofJson hf _ hd)

theorem itemsOfJson_keeps {name : String} {count length : Nat} {vs : List Json} {s s' : σ}
    (h : itemsOfJson name count length ms vs s = .ok s') (hs : P s) : P s' := by
  induction ms generalizing vs s with
  | nil =>
    cases vs with
    | nil =>
      obtain rfl := Except.ok.inj h
      exact hs
    | cons v vs => cases h
  | cons m ms ih =>
    rw [List.forall_mem_cons] at hms
    cases vs with
    | nil =>
      rw [itemsOfJson] at h
      split at h
      · exact ih hms.2 h hs
      · cases h
    | cons v vs =>
      obtain ⟨f, hf, h⟩ := Decoded.bind_eq_ok_iff.1 h
      exact ih hms.2 h (hms.1.ofJson hf s hs)

/-- What holds of the start and is kept by every member holds of every record. -/
theorem yields_record {name : String} {start : σ} (hstart : P start) :
    (record name ms start).Yields P where
  ofChars h := by
    simp only [record] at h
    split at h
    · split at h
      · cases h
      · obtain ⟨⟨s, cs₁⟩, hitems, h⟩ := Decoded.bind_eq_ok_iff.1 h
        obtain ⟨⟨_, cs₂⟩, -, h⟩ := Decoded.bind_eq_ok_iff.1 h
        obtain ⟨rfl, -⟩ := Prod.mk.inj (Except.ok.inj h)
        exact itemsOfChars_keeps hms hitems hstart
    · split at h
      · cases h
      · obtain ⟨⟨d, cs₁⟩, hmembers, h⟩ := Decoded.bind_eq_ok_iff.1 h
        obtain ⟨s, hfinish, h⟩ := Decoded.bind_eq_ok_iff.1 h
        obtain ⟨rfl, -⟩ := Prod.mk.inj (Except.ok.inj h)
        rw [← eq_of_finish hfinish]
        exact membersFrom_keeps (P := fun d => P d.value) (memberOfChars_keeps hms) hmembers hstart
    · cases h
  ofJson h := by
    simp only [record] at h
    split at h
    · exact itemsOfJson_keeps hms h hstart
    · obtain ⟨d, hmembers, hfinish⟩ := Decoded.bind_eq_ok_iff.1 h
      rw [← eq_of_finish hfinish]
      exact membersOfJson_keeps hms hmembers hstart
    · cases h

end Record

end ListQuery.Decoder
