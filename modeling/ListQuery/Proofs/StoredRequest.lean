import ListQuery.Extraction
import ListQuery.Proofs.IntegerText
import ListQuery.Proofs.Records

/-!
# Requests that are stored and read back

The object form of a request leaves out what was not asked, and writes a direction and the page
parameters without the constructor they came with. Reading it back decides anew what each of them
is, so that some requests come back changed: a direction `other "asc"` as `asc`, an invalid
parameter whose value is `null` as none at all.

The proof has two halves that meet at `Settled`. `decoder_ofJson_toJson` says of every request what
is read back, so that exactly the settled ones are read back as they were
(`ofJson_toJson_eq_self_iff`). The other half says that everything which makes requests makes
settled ones: decoding, from a text or from a value (`yields_settled`), extraction from query
parameters, and the calls of a builder (`Produced.settled`).
-/

namespace ListQuery

/-! ### Directions and page parameters -/

namespace Direction

/-- A direction that its text stands for. -/
def Settled (d : Direction) : Prop := ofString d.text = d

theorem settled_ofString (s : String) : (ofString s).Settled := by
  rw [Settled, text_ofString]

theorem settled_iff {d : Direction} : d.Settled ↔ d ≠ .other "asc" ∧ d ≠ .other "desc" := by
  cases d with
  | asc => simp [Settled, text, ofString]
  | desc => simp [Settled, text, ofString]
  | other s =>
    simp only [Settled, text, ofString, ne_eq, Direction.other.injEq]
    by_cases hasc : s = "asc"
    · simp [hasc]
    · by_cases hdesc : s = "desc"
      · simp [hdesc]
      · simp [hasc, hdesc]

end Direction

namespace PageParam

/-- What is read where a parameter was written. -/
def reread (p : PageParam) : Option PageParam :=
  if p.toJson = .null then none else some (ofJson p.toJson)

/-- A parameter that is read back as it was. -/
def Settled (p : PageParam) : Prop := p.reread = some p

theorem settled_iff {p : PageParam} : p.Settled ↔ p.toJson ≠ .null ∧ ofJson p.toJson = p := by
  rw [Settled, reread]
  by_cases h : p.toJson = .null
  · simp [h]
  · rw [if_neg h, Option.some.injEq]
    exact ⟨fun he => ⟨h, he⟩, And.right⟩

/-- An integer is read back from its decimal digits. -/
theorem settled_valid (n : Signed64) : (valid n).Settled :=
  settled_iff.2 ⟨nofun, ofString_integerText n⟩

/-- A text is an integer, or it is kept. -/
theorem ofString_eq (s : String) :
    (∃ n, ofString s = .valid n) ∨ ofString s = .invalid (.string s) := by
  unfold ofString
  dsimp only
  split
  · exact .inr rfl
  · exact .inl ⟨_, rfl⟩

theorem settled_ofString (s : String) : (ofString s).Settled := by
  rcases ofString_eq s with ⟨n, h⟩ | h
  · rw [h]
    exact settled_valid n
  · rw [h]
    exact settled_iff.2 ⟨nofun, h⟩

theorem settled_ofJson {v : Json} (hv : v ≠ .null) : (ofJson v).Settled := by
  cases v with
  | null => exact absurd rfl hv
  | string s => exact settled_ofString s
  | number n => exact settled_ofString _
  | bool | array | object => exact settled_iff.2 ⟨hv, rfl⟩

end PageParam

namespace Request

open Decoder

/-! ### What is read back -/

/-- What is read where a request was written. -/
def reread (r : Request) : Request :=
  { r with
    direction := r.direction.map fun d => .ofString d.text
    page := r.page.bind PageParam.reread
    rows := r.rows.bind PageParam.reread }

/-- A request that is read back as it was. -/
structure Settled (r : Request) : Prop where
  direction : ∀ d ∈ r.direction, d.Settled
  page : ∀ p ∈ r.page, p.Settled
  rows : ∀ p ∈ r.rows, p.Settled

theorem reread_eq_self_iff {r : Request} : r.reread = r ↔ r.Settled := by
  have hdirection : r.direction.map (fun d => .ofString d.text) = r.direction ↔
      ∀ d ∈ r.direction, d.Settled := by
    cases r.direction <;> simp [Direction.Settled]
  have hparam (p : Option PageParam) : p.bind PageParam.reread = p ↔ ∀ q ∈ p, q.Settled := by
    cases p <;> simp [PageParam.Settled]
  rw [Request.ext_iff]
  simp only [reread, true_and, hdirection, hparam]
  exact ⟨fun ⟨hd, hp, hr⟩ => ⟨hd, hp, hr⟩, fun h => ⟨h.direction, h.page, h.rows⟩⟩

theorem keys_optionalMember_sublist (key : String) (value : Option Json) :
    (Entries.keys (optionalMember key value)).Sublist [key] := by
  cases value with
  | none => exact List.nil_sublist _
  | some v => exact .refl _

section Written

variable {σ α : Type} {ms : List (Member σ)} {d : Decoder α} {set : α → σ → σ} {default a : α}
  {value : Option Json} {s : σ}

/-- A member that is written only if it is there, read back into a record that lacks it. -/
theorem foldlM_optionalMember (key : String)
    (hfind : findMember ms key = some (.optional key d set)) (hvalue : Fills d default value a)
    (hs : set default s = s) :
    (optionalMember key value).foldlM (setMember ms) s = .ok (set a s) := by
  cases hvalue with
  | absent => rw [hs]; rfl
  | given h =>
    refine Decoded.bind_eq_ok_iff.2 ⟨set a s, ?_, rfl⟩
    exact (setMember_eq_ok_of_findMember hfind).2 ⟨_, Member.optional_set_ofJson.2 ⟨a, h, rfl⟩, rfl⟩

/-- One more such member behind what has been read back. -/
theorem foldlM_append_optionalMember {vs : List (String × Json)} {start : σ}
    (h : vs.foldlM (setMember ms) start = .ok s) (key : String)
    (hfind : findMember ms key = some (.optional key d set)) (hvalue : Fills d default value a)
    (hs : set default s = s) :
    (vs ++ optionalMember key value).foldlM (setMember ms) start = .ok (set a s) := by
  rw [List.foldlM_append]
  exact Decoded.bind_eq_ok_iff.2 ⟨s, h, foldlM_optionalMember key hfind hvalue hs⟩

end Written

/-! Each member of a request, as it is written and read back. -/

theorem fills_nonempty (d : Dict Json) : Fills (.dictionary .json) .empty (nonempty d) d := by
  rw [nonempty]
  split
  · rename_i h
    obtain rfl : Dict.empty = d := Dict.ext (List.isEmpty_iff.1 h).symm
    exact .absent
  · refine .given ?_
    rw [Json.ofDict, ofJson_dictionary_json, d.ofList_entries]

theorem fills_ranges (ranges : List RangeFilter) :
    Fills (.list RangeFilter.decoder) []
      (if ranges.isEmpty then none else some (.array (ranges.map RangeFilter.toJson))) ranges := by
  have hread : (ranges.map RangeFilter.toJson).mapM RangeFilter.decoder.ofJson = .ok ranges := by
    induction ranges with
    | nil => rfl
    | cons r ranges ih =>
      rw [List.map_cons, List.mapM_cons, ih]
      rfl
  cases ranges with
  | nil => exact .absent
  | cons r ranges => exact .given hread

theorem fills_orderKey (key : Option String) :
    Fills (.optional .string) none (key.map .string) key := by
  cases key with
  | none => exact .absent
  | some key => exact .given rfl

theorem fills_direction (d : Option Direction) :
    Fills (.optional Direction.decoder) none (d.map fun d => .string d.text)
      (d.map fun d => .ofString d.text) := by
  cases d with
  | none => exact .absent
  | some d => exact .given rfl

theorem fills_param (p : Option PageParam) :
    Fills PageParam.decoder.optional none (p.map PageParam.toJson) (p.bind PageParam.reread) := by
  cases p with
  | none => exact .absent
  | some p =>
    refine .given ?_
    rw [Option.bind_some, PageParam.reread]
    by_cases h : p.toJson = .null
    · rw [h]
      rfl
    · rw [ofJson_optional _ h, if_neg h]
      rfl

theorem nodup_keys_written (r : Request) : (Entries.keys r.written).Nodup := by
  have hsublist : (Entries.keys r.written).Sublist ["filters", "searchFilters", "rangedFilters",
      "orderKey", "orderRule", "page", "rows"] := by
    simp only [written, Entries.keys, List.map_append]
    have happend {a b : List String} {k : String} (ha : a.Sublist b) (value : Option Json) :=
      ha.append (keys_optionalMember_sublist k value)
    exact happend (happend (happend (happend (happend (happend
      (keys_optionalMember_sublist _ _) _) _) _) _) _) _
  exact .sublist hsublist (by decide)

/-- What is read back where a request was written, for every request. -/
theorem decoder_ofJson_toJson (r : Request) : decoder.ofJson r.toJson = .ok r.reread := by
  -- the members in the order in which they are written; what is read so far is in `h`
  have h : (optionalMember "filters" (nonempty r.filters)).foldlM (setMember members) empty = _ :=
    foldlM_optionalMember "filters" rfl (fills_nonempty r.filters) rfl
  have h := foldlM_append_optionalMember h "searchFilters" rfl (fills_nonempty r.searches) rfl
  have h := foldlM_append_optionalMember h "rangedFilters" rfl (fills_ranges r.ranges) rfl
  have h := foldlM_append_optionalMember h "orderKey" rfl (fills_orderKey r.orderKey) rfl
  have h := foldlM_append_optionalMember h "orderRule" rfl (fills_direction r.direction) rfl
  have h := foldlM_append_optionalMember h "page" rfl (fills_param r.page) rfl
  have h := foldlM_append_optionalMember h "rows" rfl (fills_param r.rows) rfl
  exact (record_ofJson_object "FilterRequest" presence_members empty r.nodup_keys_written).trans h

theorem ofJson_toJson_eq_self_iff {r : Request} : decoder.ofJson r.toJson = .ok r ↔ r.Settled := by
  rw [decoder_ofJson_toJson, Except.ok.injEq, reread_eq_self_iff]

/-! ### What makes requests -/

theorem settled_empty : empty.Settled where
  direction := by simp [empty]
  page := by simp [empty]
  rows := by simp [empty]

/-- Whatever is decoded, from a text or from a value, is settled. -/
theorem yields_settled : decoder.Yields Settled := by
  have hkeep {α : Type} (d : Decoder α) {set : α → Request → Request}
      (hset : ∀ a r, (set a r).direction = r.direction ∧ (set a r).page = r.page ∧
        (set a r).rows = r.rows) :
      (d.map set).Yields fun f => ∀ r, Settled r → Settled (f r) := by
    refine (yields_true d).map fun a _ r hr => ?_
    obtain ⟨hdirection, hpage, hrows⟩ := hset a r
    exact ⟨hdirection ▸ hr.direction, hpage ▸ hr.page, hrows ▸ hr.rows⟩
  have hdirection : Direction.decoder.optional.Yields fun b => ∀ d ∈ b, d.Settled := by
    have h : Direction.decoder.Yields Direction.Settled :=
      (yields_true _).map fun s _ => Direction.settled_ofString s
    exact yields_optional (fun _ => h.ofChars) (fun _ => h.ofJson)
  have hparam : PageParam.decoder.optional.Yields fun b => ∀ p ∈ b, p.Settled := by
    refine yields_optional (fun hcs h => ?_) (fun hv h => ?_)
    · obtain ⟨⟨v, cs⟩, hv, h⟩ := Decoded.map_eq_ok_iff.1 h
      obtain ⟨rfl, -⟩ := Prod.mk.inj h
      exact PageParam.settled_ofJson (ne_null_of_value hcs hv)
    · obtain rfl := Except.ok.inj h
      exact PageParam.settled_ofJson hv
  show (record "FilterRequest" members empty).Yields Settled
  -- four members have no part in it, and three bring a settled value
  refine yields_record ?_ settled_empty
  simp only [members, List.forall_mem_cons, Member.optional]
  exact ⟨hkeep _ fun _ _ => ⟨rfl, rfl, rfl⟩, hkeep _ fun _ _ => ⟨rfl, rfl, rfl⟩,
    hkeep _ fun _ _ => ⟨rfl, rfl, rfl⟩, hkeep _ fun _ _ => ⟨rfl, rfl, rfl⟩,
    hdirection.map fun _ hb _ hr => ⟨hb, hr.page, hr.rows⟩,
    hparam.map fun _ hb _ hr => ⟨hr.direction, hb, hr.rows⟩,
    hparam.map fun _ hb _ hr => ⟨hr.direction, hr.page, hb⟩, fun _ h => absurd h List.not_mem_nil⟩

/-- The ways in which requests come about. -/
inductive Produced : Request → Prop where
  /-- Decoded from a JSON value. -/
  | value {v : Json} {r : Request} (h : decoder.ofJson v = .ok r) : Produced r
  /-- Decoded from a JSON text. -/
  | text {t : String} {r : Request} (h : decoder.ofText t = .ok r) : Produced r
  /-- Extracted from query parameters, with whatever diagnostics. -/
  | params (p : Params) : Produced p.extract.1
  /-- The request of a builder without calls. -/
  | empty : Produced empty
  /-- One more call of a builder, with any order but two that `asc` and `desc` stand for. -/
  | call {r : Request} (h : Produced r) (c : Call)
    (hasc : ∀ key, c ≠ .order key (some (.other "asc")))
    (hdesc : ∀ key, c ≠ .order key (some (.other "desc"))) : Produced (r.apply c)

theorem Produced.settled {r : Request} (h : Produced r) : r.Settled := by
  induction h with
  | value h => exact yields_settled.ofJson h
  | text h => exact yields_settled.ofText h
  | params p =>
    have hmap {α : Type} {f : String → α} {P : α → Prop} (hf : ∀ s, P (f s)) (x : Option String) :
        ∀ a ∈ x.map f, P a := by
      intro a ha
      obtain ⟨s, -, rfl⟩ := Option.map_eq_some_iff.1 ha
      exact hf s
    exact ⟨hmap Direction.settled_ofString p.direction, hmap PageParam.settled_ofString p.page,
      hmap PageParam.settled_ofString p.rows⟩
  | empty => exact settled_empty
  | @call r _ c hasc hdesc ih =>
    cases c with
    | filter | search | range => exact ⟨ih.direction, ih.page, ih.rows⟩
    | order key direction =>
      refine ⟨fun d hd => ?_, ih.page, ih.rows⟩
      obtain rfl : direction = some d := hd
      refine Direction.settled_iff.2 ⟨?_, ?_⟩
      · rintro rfl
        exact hasc key rfl
      · rintro rfl
        exact hdesc key rfl
    | page n =>
      refine ⟨ih.direction, fun p hp => ?_, ih.rows⟩
      obtain rfl : PageParam.valid n = p := Option.some.inj hp
      exact PageParam.settled_valid n
    | rows n =>
      refine ⟨ih.direction, ih.page, fun p hp => ?_⟩
      obtain rfl : PageParam.valid n = p := Option.some.inj hp
      exact PageParam.settled_valid n

/-- Every sequence of calls makes a request, if no order in it is one of the two. -/
theorem Produced.ofCalls {calls : List Call}
    (hasc : ∀ key, .order key (some (.other "asc")) ∉ calls)
    (hdesc : ∀ key, .order key (some (.other "desc")) ∉ calls) : Produced (ofCalls calls) := by
  have hfold : ∀ r, Produced r → Produced (calls.foldl apply r) := by
    induction calls with
    | nil => exact fun r hr => hr
    | cons c calls ih =>
      intro r hr
      refine ih (fun key h => hasc key (List.mem_cons_of_mem c h))
        (fun key h => hdesc key (List.mem_cons_of_mem c h)) _ (hr.call c ?_ ?_)
      · rintro key rfl
        exact hasc key List.mem_cons_self
      · rintro key rfl
        exact hdesc key List.mem_cons_self
  exact hfold Request.empty .empty

/-- A request that was decoded, extracted or built comes back from its object form as it was. -/
theorem ofJson_toJson_of_produced {r : Request} (h : Produced r) :
    decoder.ofJson r.toJson = .ok r :=
  ofJson_toJson_eq_self_iff.2 h.settled

/-- Query parameters whose number of rows is none, and one call behind them. -/
theorem ofJson_toJson_of_second_page :
    decoder.ofJson (toJson (apply (Params.request ⟨some "\x7b\"active\":true\x7d", none, none, none,
      none, some "2", some "many"⟩) (.order "name" (some (.other "DESC"))))) =
    .ok { empty with
      filters := .ofList [("active", .bool true)]
      orderKey := some "name"
      direction := some (.other "DESC")
      page := some (.valid ⟨2, by decide, by decide⟩)
      rows := some (.invalid (.string "many")) } :=
  ofJson_toJson_of_produced (.call (.params _) (.order "name" (some (.other "DESC"))) (by simp)
    (by simp))

end Request

end ListQuery
