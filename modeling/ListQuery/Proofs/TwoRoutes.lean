import ListQuery.Extraction
import ListQuery.Proofs.DecodedText

/-!
# The body and the query string

A request is sent as a JSON object, or in query parameters that carry the filters, the searches and
the ranges as compact JSON and the rest as plain texts. The two are taken apart by different code: a
body is one record, whose first mistake refuses it, while parameters are decoded one by one, the
ranges even item by item, and what cannot be decoded is left out and reported.

`extract_ofBody` says that the routes agree wherever parameters can carry the body (`Carriable`): if
the body is decoded at all, its parameters are extracted to the same request, and nothing is
reported.
-/

namespace ListQuery

open Decoder

/-! ### What a body is decoded to -/

namespace Request

/-- Each part of a request is read from the member under its key, or left empty. -/
structure ReadFrom (ms : List (String × Json)) (r : Request) : Prop where
  filters : Fills (.dictionary .json) .empty (Entries.get? "filters" ms) r.filters
  searches : Fills (.dictionary .json) .empty (Entries.get? "searchFilters" ms) r.searches
  ranges : Fills (.list RangeFilter.decoder) [] (Entries.get? "rangedFilters" ms) r.ranges
  orderKey : Fills (.optional .string) none (Entries.get? "orderKey" ms) r.orderKey
  direction : Fills (.optional Direction.decoder) none (Entries.get? "orderRule" ms) r.direction
  page : Fills (.optional PageParam.decoder) none (Entries.get? "page" ms) r.page
  rows : Fills (.optional PageParam.decoder) none (Entries.get? "rows" ms) r.rows

theorem readFrom_of_decoder {ms : List (String × Json)} (hms : (Entries.keys ms).Nodup)
    {r : Request} (h : decoder.ofJson (.object ms) = .ok r) : ReadFrom ms r := by
  rw [decoder, record_ofJson_object "FilterRequest" presence_members empty hms] at h
  have hpart {α : Type} {key : String} {d : Decoder α} {set : α → Request → Request}
      (part : Request → α) (hfind : findMember members key = some (.optional key d set))
      (hset : ∀ a s, part (set a s) = a) (others : ∀ m ∈ members, m.key = key ∨ m.Keeps part) :
      Fills d (part empty) (Entries.get? key ms) (part r) :=
    (Carries.of_optional hfind hset others).fills hms h
  exact {
    filters := hpart filters rfl (fun _ _ => rfl) (by simp [members, Member.keeps_optional])
    searches := hpart searches rfl (fun _ _ => rfl) (by simp [members, Member.keeps_optional])
    ranges := hpart ranges rfl (fun _ _ => rfl) (by simp [members, Member.keeps_optional])
    orderKey := hpart orderKey rfl (fun _ _ => rfl) (by simp [members, Member.keeps_optional])
    direction := hpart direction rfl (fun _ _ => rfl) (by simp [members, Member.keeps_optional])
    page := hpart page rfl (fun _ _ => rfl) (by simp [members, Member.keeps_optional])
    rows := hpart rows rfl (fun _ _ => rfl) (by simp [members, Member.keeps_optional]) }

end Request

/-! ### What the parameters of a body are extracted to -/

namespace Params

/-- A value as a parameter has it: a string as it is, and anything else as compact JSON. -/
def plainText : Json → String
  | .string s => s
  | v => v.compact

/-- The parameters that carry a body. -/
def ofBody (ms : List (String × Json)) : Params where
  filters := (Entries.get? "filters" ms).map Json.compact
  searches := (Entries.get? "searchFilters" ms).map Json.compact
  ranges := (Entries.get? "rangedFilters" ms).map Json.compact
  orderKey := (Entries.get? "orderKey" ms).map plainText
  direction := (Entries.get? "orderRule" ms).map plainText
  page := (Entries.get? "page" ms).map plainText
  rows := (Entries.get? "rows" ms).map plainText

/-- A body that parameters can carry. Members under other keys do not matter. -/
structure Carriable (ms : List (String × Json)) : Prop where
  keys : (Entries.keys ms).Nodup
  /-- What is sent as JSON is read back from its text. -/
  json : ∀ key ∈ ["filters", "searchFilters", "rangedFilters"], ∀ v ∈ Entries.get? key ms,
    v.Plain Json.Reader.maxDepth
  /-- A parameter has no text for `null`, which a body may give here. -/
  order : ∀ key ∈ ["orderKey", "orderRule"], ∀ v ∈ Entries.get? key ms, ∃ s, v = .string s
  page : ∀ key ∈ ["page", "rows"], ∀ v ∈ Entries.get? key ms,
    (∃ s, v = .string s) ∨ ∃ n, v = .ofInteger n

/-- A member that is decoded as JSON is decoded the same from its compact text. -/
theorem decodeJson_compact {α : Type} {d : Decoder α}
    (htext : ∀ {v a}, v.Plain Json.Reader.maxDepth → d.ofJson v = .ok a →
      d.ofText v.compact = .ok a)
    {value : Option Json} (hvalue : ∀ v ∈ value, v.Plain Json.Reader.maxDepth) {default a : α}
    (h : Fills d default value a) (name : String) :
    ∃ b, decodeJson d name (value.map Json.compact) = (b, []) ∧ b.getD default = a := by
  cases h with
  | absent => exact ⟨none, rfl, rfl⟩
  | @given v a h =>
    refine ⟨some a, ?_, rfl⟩
    simp only [decodeJson, Option.map_some, htext (hvalue v rfl) h]

/-- Ranges that are decoded one by one, if all of them can be decoded. -/
theorem decodeRanges_of_mapM {vs : List Json} {ranges : List RangeFilter} (index : Nat)
    (h : vs.mapM RangeFilter.decoder.ofJson = .ok ranges) :
    decodeRanges index vs = (ranges, []) := by
  induction vs generalizing index ranges with
  | nil =>
    obtain rfl := Except.ok.inj h
    rfl
  | cons v vs ih =>
    rw [List.mapM_cons] at h
    obtain ⟨r, hr, h⟩ := Decoded.bind_eq_ok_iff.1 h
    obtain ⟨rs, hrs, h⟩ := Decoded.bind_eq_ok_iff.1 h
    obtain rfl := Except.ok.inj h
    rw [decodeRanges, ih (index + 1) hrs, hr]

/-- The ranges of a body, decoded from their compact text one by one. -/
theorem decodeRanges_compact {value : Option Json}
    (hvalue : ∀ v ∈ value, v.Plain Json.Reader.maxDepth) {ranges : List RangeFilter}
    (h : Fills (.list RangeFilter.decoder) [] value ranges) (name : String) :
    ∃ vs, decodeJson (.list .json) name (value.map Json.compact) = (vs, []) ∧
      decodeRanges 0 (vs.getD []) = (ranges, []) := by
  cases h with
  | absent => exact ⟨none, rfl, rfl⟩
  | @given v _ h =>
    cases v with
    | null | bool | number | string | object => cases h
    | array vs =>
      have hvs : Fills (.list .json) [] (some (.array vs)) vs := .given (ofJson_list_json vs)
      obtain ⟨b, hb, rfl⟩ := decodeJson_compact ofText_compact_list hvalue hvs name
      exact ⟨b, hb, decodeRanges_of_mapM 0 h⟩

/-- A member that is decoded from its plain text. -/
theorem map_plainText {α : Type} {d : Decoder α} {read : String → α} {value : Option Json}
    (hvalue : ∀ v ∈ value, d.optional.ofJson v = .ok (some (read (plainText v)))) {a : Option α}
    (h : Fills d.optional none value a) : (value.map plainText).map read = a := by
  cases h with
  | absent => rfl
  | @given v _ h => exact Except.ok.inj ((hvalue v rfl).symm.trans h)

/-- What a body is decoded to is what its parameters are extracted to, and nothing is reported. -/
theorem extract_ofBody {ms : List (String × Json)} (hms : Carriable ms) {r : Request}
    (h : Request.decoder.ofJson (.object ms) = .ok r) : (ofBody ms).extract = (r, []) := by
  have hread := Request.readFrom_of_decoder hms.keys h
  obtain ⟨filters, hfilters, hfilters'⟩ := decodeJson_compact ofText_compact_dictionary
    (hms.json "filters" (by simp)) hread.filters "filters"
  obtain ⟨searches, hsearches, hsearches'⟩ := decodeJson_compact ofText_compact_dictionary
    (hms.json "searchFilters" (by simp)) hread.searches "searchFilters"
  obtain ⟨values, hvalues, hranges⟩ := decodeRanges_compact
    (hms.json "rangedFilters" (by simp)) hread.ranges "rangedFilters"
  have horderKey : ((Entries.get? "orderKey" ms).map plainText).map id = r.orderKey := by
    refine map_plainText (fun v hv => ?_) hread.orderKey
    obtain ⟨s, rfl⟩ := hms.order "orderKey" (by simp) v hv
    rfl
  have hdirection : ((Entries.get? "orderRule" ms).map plainText).map .ofString = r.direction := by
    refine map_plainText (fun v hv => ?_) hread.direction
    obtain ⟨s, rfl⟩ := hms.order "orderRule" (by simp) v hv
    rfl
  have hparam {key : String} (hkey : key ∈ ["page", "rows"]) {p : Option PageParam}
      (hp : Fills PageParam.decoder.optional none (Entries.get? key ms) p) :
      ((Entries.get? key ms).map plainText).map PageParam.ofString = p := by
    refine map_plainText (fun v hv => ?_) hp
    obtain ⟨s, rfl⟩ | ⟨n, rfl⟩ := hms.page key hkey v hv
    · rfl
    · rfl
  have hpage := hparam List.mem_cons_self hread.page
  have hrows := hparam (List.mem_cons_of_mem _ List.mem_cons_self) hread.rows
  rw [Option.map_id, id_eq] at horderKey
  simp only [extract, ofBody, hfilters, hsearches, hvalues, hranges, hfilters', hsearches',
    horderKey, hdirection, hpage, hrows, List.append_nil]

/-- A range in its array form without an upper bound, and a page number beyond 64 bits. -/
theorem extract_ofBody_of_open_range :
    (ofBody
      [ ("rangedFilters", .array [.array [.string "age", .ofInteger ⟨18, by decide, by decide⟩]]),
        ("orderRule", .string "desc"),
        ("page", .ofInteger ⟨18446744073709551615, by decide, by decide⟩) ]).extract =
    ({ Request.empty with
      ranges := [⟨"age", .ofInteger ⟨18, by decide, by decide⟩, .null⟩]
      direction := some .desc
      page := some (.valid ⟨9223372036854775807, by decide, by decide⟩) }, []) := by
  refine extract_ofBody ⟨by decide, ?_, ?_, ?_⟩ rfl
  · have hplain : (Json.array [.array [.string "age", .ofInteger ⟨18, by decide, by decide⟩]]).Plain
        Json.Reader.maxDepth :=
      .array <| List.forall_mem_singleton.2 <| .array <| List.forall_mem_cons.2
        ⟨.string _, List.forall_mem_singleton.2 (.integer _)⟩
    simpa [Entries.get?] using hplain
  · simp [Entries.get?]
  · simp [Entries.get?]

end Params

end ListQuery
