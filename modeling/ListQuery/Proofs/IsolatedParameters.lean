import ListQuery.Extraction
import Mathlib.Data.List.Count

/-!
# Parameters fail on their own

Query parameters are decoded one by one. One that cannot be decoded costs its own part of the request
and draws one diagnostic under its name; an array of ranges is decoded item by item, and a bad item
costs only itself. So nothing that is wrong with a parameter shows in another part of the request.

`extract_isolated` says this of all parameters at once, by comparing them with each parameter sent
alone (`only`). For the ranges it goes down to the items: each gives a range or a fault (`faults`), the
ranges stay in their order, and the diagnostics name the faulty indices in theirs. Names are told
apart by their last character and by the digits of the index (`rangeName_injective`), so that no two
diagnostics share one.
-/

namespace ListQuery.Params

/-! ### Parameters alone -/

/-- The seven parameters. -/
inductive Name where
  | filters
  | searches
  | ranges
  | orderKey
  | direction
  | page
  | rows

/-- One parameter as it came, and no other. -/
def only (p : Params) : Name → Params
  | .filters => { empty with filters := p.filters }
  | .searches => { empty with searches := p.searches }
  | .ranges => { empty with ranges := p.ranges }
  | .orderKey => { empty with orderKey := p.orderKey }
  | .direction => { empty with direction := p.direction }
  | .page => { empty with page := p.page }
  | .rows => { empty with rows := p.rows }

/-- The names of all diagnostics, in their order. -/
def reported (p : Params) : List String := p.extract.2.map Diagnostic.parameter

/-! ### Items of an array of ranges -/

/-- The range that a value is decoded to on its own, if it is. -/
def range? (v : Json) : Option RangeFilter := (RangeFilter.decoder.ofJson v).toOption

/-- The index of an item that is no range, and what is wrong with it. -/
def fault? (item : Json × Nat) : Option (Nat × DecodeError) :=
  match RangeFilter.decoder.ofJson item.1 with
  | .ok _ => none
  | .error e => some (item.2, e)

/-- The items of an array that are no ranges. -/
def faults (vs : List Json) : List (Nat × DecodeError) := vs.zipIdx.filterMap fault?

/-- The diagnostic of an item that is no range. -/
def faultDiagnostic (fault : Nat × DecodeError) : Diagnostic :=
  ⟨rangeName fault.1, fault.2.message⟩

theorem faults_nil : faults [] = [] := rfl

theorem fault?_eq_some_iff {item : Json × Nat} {fault : Nat × DecodeError} :
    fault? item = some fault ↔
      item.2 = fault.1 ∧ RangeFilter.decoder.ofJson item.1 = .error fault.2 := by
  rw [fault?]
  cases RangeFilter.decoder.ofJson item.1 with
  | ok r => simp
  | error e => simp [Prod.ext_iff]

/-- Every item is decoded on its own, to a range or to a diagnostic. -/
theorem decodeRanges_eq (index : Nat) (vs : List Json) :
    decodeRanges index vs =
      (vs.filterMap range?, ((vs.zipIdx index).filterMap fault?).map faultDiagnostic) := by
  induction vs generalizing index with
  | nil => rfl
  | cons v rest ih =>
    rw [decodeRanges, ih, List.zipIdx_cons, List.filterMap_cons, List.filterMap_cons, range?, fault?]
    cases RangeFilter.decoder.ofJson v <;> rfl

/-- No item is lost, and none counts twice. -/
theorem length_ranges_add_length_faults (vs : List Json) :
    (vs.filterMap range?).length + (faults vs).length = vs.length := by
  -- the rest of a list is counted from the next index on
  have hfrom (index : Nat) : (vs.filterMap range?).length +
      ((vs.zipIdx index).filterMap fault?).length = vs.length := by
    induction vs generalizing index with
    | nil => rfl
    | cons v rest ih =>
      have hrest := ih (index + 1)
      rw [List.zipIdx_cons, List.filterMap_cons, List.filterMap_cons, range?, fault?]
      cases RangeFilter.decoder.ofJson v with
      | ok r =>
        simp only [Except.toOption, List.length_cons]
        omega
      | error e =>
        simp only [Except.toOption, List.length_cons]
        omega
  exact hfrom 0

/-- The faults are the errors of the items, each under the index of its item. -/
theorem mem_faults_iff {vs : List Json} {i : Nat} {e : DecodeError} :
    (i, e) ∈ faults vs ↔ ∃ v, vs[i]? = some v ∧ RangeFilter.decoder.ofJson v = .error e := by
  simp only [faults, List.mem_filterMap, fault?_eq_some_iff, List.mem_zipIdx_iff_getElem?]
  constructor
  · rintro ⟨⟨v, _⟩, hv, rfl, he⟩
    exact ⟨v, hv, he⟩
  · rintro ⟨v, hv, he⟩
    exact ⟨(v, i), hv, rfl, he⟩

/-- Faults come by increasing index, so that no index comes twice. -/
theorem pairwise_faults (vs : List Json) : ((faults vs).map Prod.fst).Pairwise (· < ·) := by
  -- positions increase along a list, and so do those of the items that are picked from it
  have hindices : vs.zipIdx.Pairwise fun a b => a.2 < b.2 := by
    rw [← List.pairwise_map, List.zipIdx_map_snd]
    exact List.pairwise_lt_range'
  rw [List.pairwise_map, faults]
  refine hindices.filterMap fault? fun a a' hlt b hb b' hb' => ?_
  rw [← (fault?_eq_some_iff.1 hb).1, ← (fault?_eq_some_iff.1 hb').1]
  exact hlt

/-! ### Names of diagnostics -/

theorem rangeName_injective : Function.Injective rangeName := by
  intro i j h
  rw [rangeName_eq, rangeName_eq, String.append_left_inj, String.append_right_inj] at h
  have hdigits : Nat.toDigits 10 i = Nat.toDigits 10 j := by
    rw [← Nat.toList_repr, ← Nat.toList_repr]
    exact congrArg String.toList h
  rw [← Nat.ofDigitChars_ten_toDigits (n := i), hdigits, Nat.ofDigitChars_ten_toDigits]

/-- Only names of ranges end in a bracket. -/
theorem rangeName_ne {name : String} (h : name.toList.getLast? ≠ some ']') (i : Nat) :
    rangeName i ≠ name := by
  rintro rfl
  refine h ?_
  rw [rangeName_eq, String.toList_append, List.getLast?_append]
  rfl

/-- No item is reported under the name of a parameter. -/
theorem count_faults {name : String} (h : name.toList.getLast? ≠ some ']') (vs : List Json) :
    (((faults vs).map Prod.fst).map rangeName).count name = 0 := by
  refine List.count_eq_zero.2 fun hmem => ?_
  obtain ⟨i, -, hi⟩ := List.mem_map.1 hmem
  exact rangeName_ne h i hi

/-- An item at fault is reported under its own name, once. -/
theorem count_rangeName_faults (vs : List Json) (i : Nat) :
    (((faults vs).map Prod.fst).map rangeName).count (rangeName i) =
      if i ∈ (faults vs).map Prod.fst then 1 else 0 := by
  have hnodup : ((faults vs).map Prod.fst).Nodup := (pairwise_faults vs).imp Nat.ne_of_lt
  rw [List.count_map_of_injective _ _ rangeName_injective, hnodup.count]

variable {α : Type} {d : Decoder α} {name : String}

/-- A parameter is reported under no other name than its own. -/
theorem count_decodeJson {other : String} (h : other ≠ name) (text : Option String) :
    ((decodeJson d name text).2.map Diagnostic.parameter).count other = 0 := by
  refine List.count_eq_zero.2 fun hmem => ?_
  cases text with
  | none => simp [decodeJson_none] at hmem
  | some text =>
    cases hd : d.ofText text with
    | ok a => simp [decodeJson_of_ok hd] at hmem
    | error e =>
      rw [decodeJson_of_error hd] at hmem
      exact h (List.mem_singleton.1 hmem)

/-- A parameter that cannot be decoded is reported under its name, once. -/
theorem count_decodeJson_of_error {text : String} {e : DecodeError} (h : d.ofText text = .error e) :
    ((decodeJson d name (some text)).2.map Diagnostic.parameter).count name = 1 := by
  rw [decodeJson_of_error h]
  exact List.count_singleton_self

/-! ### Extraction -/

variable (p : Params)

theorem request_filters :
    p.request.filters = (decodeJson (.dictionary .json) "filters" p.filters).1.getD .empty :=
  rfl

theorem request_searches :
    p.request.searches =
      (decodeJson (.dictionary .json) "searchFilters" p.searches).1.getD .empty :=
  rfl

/-- The items of the ranges, none if they cannot be decoded. -/
def rangeItems : List Json := (decodeJson (.list .json) "rangedFilters" p.ranges).1.getD []

theorem request_ranges : p.request.ranges = p.rangeItems.filterMap range? :=
  congrArg Prod.fst (decodeRanges_eq 0 p.rangeItems)

/-- What is reported of the filters, of the searches, of the ranges as a whole and of their items. -/
theorem diagnostics_eq :
    p.extract.2 =
      (decodeJson (.dictionary .json) "filters" p.filters).2 ++
      (decodeJson (.dictionary .json) "searchFilters" p.searches).2 ++
      (decodeJson (.list .json) "rangedFilters" p.ranges).2 ++
      (faults p.rangeItems).map faultDiagnostic :=
  congrArg _ (congrArg Prod.snd (decodeRanges_eq 0 p.rangeItems))

/-- How often a name is reported, counted parameter by parameter. -/
theorem count_reported (name : String) :
    p.reported.count name =
      ((decodeJson (.dictionary .json) "filters" p.filters).2.map Diagnostic.parameter).count name +
      ((decodeJson (.dictionary .json) "searchFilters" p.searches).2.map
        Diagnostic.parameter).count name +
      ((decodeJson (.list .json) "rangedFilters" p.ranges).2.map Diagnostic.parameter).count name +
      (((faults p.rangeItems).map Prod.fst).map rangeName).count name := by
  have hfaults : ((faults p.rangeItems).map faultDiagnostic).map Diagnostic.parameter =
      ((faults p.rangeItems).map Prod.fst).map rangeName := by
    rw [List.map_map, List.map_map]
    rfl
  simp only [reported, diagnostics_eq, List.map_append, List.count_append, hfaults]

/-! #### One parameter alone -/

theorem diagnostics_only_filters :
    (p.only .filters).extract.2 = (decodeJson (.dictionary .json) "filters" p.filters).2 := by
  rw [diagnostics_eq, rangeItems]
  simp only [only, empty, decodeJson_none, Option.getD_none, faults_nil, List.map_nil,
    List.append_nil]

theorem diagnostics_only_searches :
    (p.only .searches).extract.2 =
      (decodeJson (.dictionary .json) "searchFilters" p.searches).2 := by
  rw [diagnostics_eq, rangeItems]
  simp only [only, empty, decodeJson_none, Option.getD_none, faults_nil, List.map_nil,
    List.append_nil, List.nil_append]

theorem diagnostics_only_ranges :
    (p.only .ranges).extract.2 =
      (decodeJson (.list .json) "rangedFilters" p.ranges).2 ++
        (faults p.rangeItems).map faultDiagnostic :=
  (p.only .ranges).diagnostics_eq

/-! #### Parameters that can be decoded, and such that cannot -/

variable {p} {text : String} {vs : List Json} {e : DecodeError}

theorem rangeItems_of_ok (hp : p.ranges = some text)
    (h : (Decoder.list .json).ofText text = .ok vs) : p.rangeItems = vs := by
  rw [rangeItems, hp, decodeJson_of_ok h]
  rfl

theorem diagnostics_only_ranges_of_ok (hp : p.ranges = some text)
    (h : (Decoder.list .json).ofText text = .ok vs) :
    (p.only .ranges).extract.2 = (faults vs).map faultDiagnostic := by
  rw [diagnostics_only_ranges, rangeItems_of_ok hp h, hp, decodeJson_of_ok h]
  rfl

/-- Each item is reported if it is at fault, and no other parameter is reported under its name. -/
theorem count_reported_rangeName (hp : p.ranges = some text)
    (h : (Decoder.list .json).ofText text = .ok vs) (i : Nat) :
    p.reported.count (rangeName i) = if i ∈ (faults vs).map Prod.fst then 1 else 0 := by
  have hname {name : String} (hlast : name.toList.getLast? ≠ some ']') : rangeName i ≠ name :=
    rangeName_ne hlast i
  rw [count_reported, count_decodeJson (hname (by decide +kernel)),
    count_decodeJson (hname (by decide +kernel)), count_decodeJson (hname (by decide +kernel)),
    rangeItems_of_ok hp h, count_rangeName_faults]
  omega

theorem filters_of_error (hp : p.filters = some text)
    (h : (Decoder.dictionary .json).ofText text = .error e) :
    p.request.filters = .empty ∧ p.reported.count "filters" = 1 := by
  constructor
  · rw [request_filters, hp, decodeJson_of_error h]
    rfl
  · rw [count_reported, hp, count_decodeJson_of_error h, count_decodeJson (by decide),
      count_decodeJson (by decide), count_faults (by decide +kernel)]

theorem searches_of_error (hp : p.searches = some text)
    (h : (Decoder.dictionary .json).ofText text = .error e) :
    p.request.searches = .empty ∧ p.reported.count "searchFilters" = 1 := by
  constructor
  · rw [request_searches, hp, decodeJson_of_error h]
    rfl
  · rw [count_reported, hp, count_decodeJson_of_error h, count_decodeJson (by decide),
      count_decodeJson (by decide), count_faults (by decide +kernel)]

theorem ranges_of_error (hp : p.ranges = some text)
    (h : (Decoder.list .json).ofText text = .error e) :
    p.request.ranges = [] ∧ p.reported.count "rangedFilters" = 1 := by
  constructor
  · rw [request_ranges, rangeItems, hp, decodeJson_of_error h]
    rfl
  · rw [count_reported, hp, count_decodeJson_of_error h, count_decodeJson (by decide),
      count_decodeJson (by decide), count_faults (by decide +kernel)]

/-- **Parameters fail on their own**: each part of the request comes from its parameter alone, and
the diagnostics are those of the three that hold JSON, one after the other. Of an array of ranges the
items that are ranges are kept in order, and the others reported under their index, in order, each
once. A parameter that cannot be decoded leaves its part empty and is reported once. -/
theorem extract_isolated (p : Params) :
    p.request =
      { filters := (p.only .filters).request.filters
        searches := (p.only .searches).request.searches
        ranges := (p.only .ranges).request.ranges
        orderKey := (p.only .orderKey).request.orderKey
        direction := (p.only .direction).request.direction
        page := (p.only .page).request.page
        rows := (p.only .rows).request.rows } ∧
    p.extract.2 =
      (p.only .filters).extract.2 ++ (p.only .searches).extract.2 ++
        (p.only .ranges).extract.2 ∧
    (∀ text vs, p.ranges = some text → (Decoder.list .json).ofText text = .ok vs →
      p.request.ranges = vs.filterMap range? ∧
      (p.only .ranges).extract.2 = (faults vs).map faultDiagnostic ∧
      ((faults vs).map Prod.fst).Pairwise (· < ·) ∧
      (∀ i e, (i, e) ∈ faults vs ↔
        ∃ v, vs[i]? = some v ∧ RangeFilter.decoder.ofJson v = .error e) ∧
      (∀ i, p.reported.count (rangeName i) = if i ∈ (faults vs).map Prod.fst then 1 else 0) ∧
      p.request.ranges.length + (faults vs).length = vs.length) ∧
    (∀ text e, p.filters = some text → (Decoder.dictionary .json).ofText text = .error e →
      p.request.filters = .empty ∧ p.reported.count "filters" = 1) ∧
    (∀ text e, p.searches = some text → (Decoder.dictionary .json).ofText text = .error e →
      p.request.searches = .empty ∧ p.reported.count "searchFilters" = 1) ∧
    (∀ text e, p.ranges = some text → (Decoder.list .json).ofText text = .error e →
      p.request.ranges = [] ∧ p.reported.count "rangedFilters" = 1) := by
  refine ⟨rfl, ?_, fun text vs hp h => ?_, fun text e => filters_of_error,
    fun text e => searches_of_error, fun text e => ranges_of_error⟩
  · rw [diagnostics_only_filters, diagnostics_only_searches, diagnostics_only_ranges,
      diagnostics_eq, List.append_assoc]
  · have hranges : p.request.ranges = vs.filterMap range? := by
      rw [request_ranges, rangeItems_of_ok hp h]
    refine ⟨hranges, diagnostics_only_ranges_of_ok hp h, pairwise_faults vs,
      fun i e => mem_faults_iff, count_reported_rangeName hp h, ?_⟩
    rw [hranges, length_ranges_add_length_faults]

/-- A bad range between two good ones beside filters that are an array; then searches that are an
array beside ranges that are a truth value. -/
theorem extract_isolated_of_bad_texts :
    let p := { empty with
      filters := some "[1]"
      ranges := some "[[\"a\",\"x\"],true,[\"b\",null,\"y\"]]" }
    let q := { empty with searches := some "[]", ranges := some "true" }
    p.request.ranges =
      [⟨"a", .string "x", .null⟩, ⟨"b", .null, .string "y"⟩] ∧
    p.reported.count (rangeName 1) = 1 ∧
    (p.request.filters = .empty ∧ p.reported.count "filters" = 1) ∧
    (q.request.searches = .empty ∧ q.reported.count "searchFilters" = 1) ∧
    (q.request.ranges = [] ∧ q.reported.count "rangedFilters" = 1) := by
  intro p q
  have hvalues : (Decoder.list .json).ofText "[[\"a\",\"x\"],true,[\"b\",null,\"y\"]]" =
      .ok [.array [.string "a", .string "x"], .bool true,
        .array [.string "b", .null, .string "y"]] := by
    cbv
  obtain ⟨-, -, hitems, hfilters, -, -⟩ := extract_isolated p
  obtain ⟨-, -, -, -, hsearches, hranges⟩ := extract_isolated q
  obtain ⟨hkept, -, -, -, hcount, -⟩ := hitems _ _ rfl hvalues
  refine ⟨hkept.trans (by cbv), (hcount 1).trans (if_pos (by decide +kernel)),
    hfilters _ (.wrongType .array .dictionary) rfl (by cbv),
    hsearches _ (.wrongType .array .dictionary) rfl (by cbv),
    hranges _ (.wrongType (.bool true) .list) rfl (by cbv)⟩

end ListQuery.Params
