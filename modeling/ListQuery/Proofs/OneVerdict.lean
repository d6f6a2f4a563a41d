import ListQuery.Json.Same
import ListQuery.Proofs.PermittedPaths

/-!
# One query, one verdict

Validation reads a request, the data store reads the query that it compiles to. Could a client that
is refused write the same query in another way, and be accepted? The written query decides the
verdict if it decides what is tested, and this is a question of unique reading:

* The keys of a test are written as the keys of objects, beside the words of the query language. A
  key whose segments are none of these words (`Unreserved`) is not taken for one of them.
* A filter writes its value as it is. An object can then look like what the compiler writes itself:
  like a column below the relation that a key without a dot seems to name (`Json.LikeColumn`), or
  like the bounds of a range (`Json.LikeBackwardsRange`).

Of the second kind there are two ways to write one query, and only one of them is checked: a filter
`author` with the value `{"name": "Ada"}` and a filter `author.name` with the value `"Ada"`
(`same_query_other_verdict`). If no value looks so, the verdict belongs to the query:
`isValid_eq_of_same` holds even for queries that differ in the order of the members of objects.

The proof follows the written query inwards: to single tests (`same_onField`), to the entries of a
request (`acceptedBy_iff_of_same`), and to the whole query.
-/

namespace ListQuery

/-! ### Reserved words -/

/-- The words of the query language: the groups, the negation and the operators. -/
def reservedWords : List String := ["AND", "OR", "NOT"] ++ Operator.all.map Operator.name

/-- The parts of a key between its dots. -/
def FieldPath.segments (key : String) : List String :=
  (key.toList.splitOn '.').map String.ofList

/-- No part of the key is a word of the query language. -/
def Unreserved (key : String) : Prop := ∀ segment ∈ FieldPath.segments key, segment ∉ reservedWords

instance (key : String) : Decidable (Unreserved key) :=
  inferInstanceAs (Decidable (∀ segment ∈ FieldPath.segments key, segment ∉ reservedWords))

theorem FieldPath.segments_of_notMem {key : String} (h : '.' ∉ key.toList) :
    segments key = [key] := by
  rw [segments, List.splitOn_eq_singleton h, List.map_singleton, String.ofList_toList]

theorem FieldPath.segments_append {relation : String} (h : '.' ∉ relation.toList)
    (column : String) : segments (relation ++ "." ++ column) = relation :: segments column := by
  have hl : (relation ++ "." ++ column).toList = relation.toList ++ '.' :: column.toList := by simp
  rw [segments, hl, List.splitOn_append_cons_self_of_not_mem h, List.map_cons,
    String.ofList_toList, segments]

/-- A word is its own only segment, so no word is unreserved. -/
theorem not_unreserved_of_mem {word : String} (h : word ∈ reservedWords) : ¬ Unreserved word := by
  have hdots : ∀ word ∈ reservedWords, '.' ∉ word.toList := by decide +kernel
  intro hu
  exact hu word (by rw [FieldPath.segments_of_notMem (hdots word h)]; simp) h

theorem unreserved_append_iff {relation column : String} (h : '.' ∉ relation.toList) :
    Unreserved (relation ++ "." ++ column) ↔ relation ∉ reservedWords ∧ Unreserved column := by
  rw [Unreserved, FieldPath.segments_append h, List.forall_mem_cons, Unreserved]

/-- A key is cut at its first dot or not at all, and neither part of it is reserved. -/
theorem Unreserved.cases {key : String} (h : Unreserved key) :
    ('.' ∉ key.toList ∧ key ∉ reservedWords) ∨
      ∃ relation column, key = relation ++ "." ++ column ∧ '.' ∉ relation.toList ∧
        relation ∉ reservedWords ∧ Unreserved column := by
  rcases FieldPath.ofString_cases key with ⟨-, hdot⟩ | ⟨relation, column, -, rfl, hdot⟩
  · exact .inl ⟨hdot, fun hmem => not_unreserved_of_mem hmem h⟩
  · exact .inr ⟨relation, column, rfl, hdot, (unreserved_append_iff hdot).1 h⟩

/-! ### Values that look like something else -/

/-- The value is written like a column with a test of its own. -/
def Json.LikeColumn (v : Json) : Prop := ∃ column test, v = .entry column test ∧ Unreserved column

/-- The value is written like the bounds of a range that runs backwards. -/
def Json.LikeBackwardsRange (v : Json) : Prop :=
  ∃ lower upper, Json.Same (Predicate.rangeObject lower upper) v ∧ Backwards lower upper

theorem Json.Same.boundInstant? {a b : Json} (h : Json.Same a b) :
    Specification.boundInstant? a = Specification.boundInstant? b := by
  cases h <;> rfl

namespace Predicate

/-- A range that runs backwards. -/
def RunsBackwards : Predicate → Prop
  | .range lower upper => Backwards lower upper
  | _ => False

/-- A test as the compiler makes them, whose value does not look like a column below its key. A key
with a dot has its column already. -/
def PlainAt (key : String) : Predicate → Prop
  | .equals v => '.' ∉ key.toList → ¬ v.LikeColumn
  | .contains _ | .range _ _ => True
  | .compare _ _ | .custom _ => False

variable {key : String}

/-- A plain test of a key without a dot is not written like a column with a test of its own. -/
theorem PlainAt.not_same_entry {p : Predicate} (hp : p.PlainAt key) (hkey : '.' ∉ key.toList)
    {column : String} (hc : Unreserved column) (test : Json) :
    ¬ Json.Same p.toJson (.entry column test) := by
  intro h
  cases p with
  | equals v =>
    obtain ⟨test', hv, -⟩ := h.symm.exists_entry
    exact hp hkey ⟨column, test', hv, hc⟩
  | contains v =>
    obtain ⟨rfl, -⟩ := Json.same_entry_iff.1 h
    exact not_unreserved_of_mem (by decide +kernel) hc
  | range lower upper =>
    obtain ⟨test', hv, -⟩ := h.symm.exists_entry
    simp [toJson, rangeObject, Json.entry] at hv
  | compare | custom => exact hp

/-- Tests that are written the same run backwards together, unless a value looks as if it did. -/
theorem RunsBackwards.of_same {p q : Predicate} (hq : q.PlainAt key)
    (hv : ∀ v, q = .equals v → ¬ v.LikeBackwardsRange) (h : Json.Same p.toJson q.toJson)
    (hp : p.RunsBackwards) : q.RunsBackwards := by
  cases p with
  | range lower upper =>
    cases q with
    | equals v => exact absurd ⟨lower, upper, h, hp⟩ (hv v rfl)
    | contains v =>
      obtain ⟨v', he, -⟩ := h.symm.exists_entry
      simp [toJson, rangeObject, Json.entry] at he
    | range lower' upper' =>
      obtain ⟨first, last, hf, hl, hafter⟩ := hp
      have hlower : Json.Same lower lower' := h.get? "gte" rfl rfl
      have hupper : Json.Same upper upper' := h.get? "lte" rfl rfl
      rw [hlower.boundInstant?] at hf
      rw [hupper.boundInstant?] at hl
      exact ⟨first, last, hf, hl, hafter⟩
    | compare | custom => exact hq.elim
  | equals | contains | compare | custom => exact hp.elim

end Predicate

/-! ### Single tests -/

namespace Condition

theorem toJson_onField_of_notMem {key : String} (h : '.' ∉ key.toList) (p : Predicate) :
    (onField key p).toJson = .entry key p.toJson := by
  rw [onField, FieldPath.ofString_of_notMem h, onPath, toJson]

theorem toJson_onField_append {relation : String} (h : '.' ∉ relation.toList) (column : String)
    (p : Predicate) :
    (onField (relation ++ "." ++ column) p).toJson =
      .entry relation (.entry column p.toJson) := by
  rw [onField, FieldPath.ofString_append h, onPath, toJson, toJson]

/-- A test is not written like a group. -/
theorem not_same_or {key : String} (hk : Unreserved key) {p : Predicate}
    {options : List Condition} : ¬ Json.Same (onField key p).toJson (or options).toJson := by
  intro h
  rw [toJson] at h
  rcases hk.cases with ⟨hdot, hword⟩ | ⟨relation, column, rfl, hdot, hword, -⟩
  · rw [toJson_onField_of_notMem hdot, Json.same_entry_iff] at h
    exact hword (h.1 ▸ by decide +kernel)
  · rw [toJson_onField_append hdot, Json.same_entry_iff] at h
    exact hword (h.1 ▸ by decide +kernel)

/-- **Unique reading of a test**: written the same, two tests have the same key and are written the
same behind it. -/
theorem same_onField {k l : String} {p q : Predicate} (hk : Unreserved k) (hl : Unreserved l)
    (hp : p.PlainAt k) (hq : q.PlainAt l) (h : Json.Same (onField k p).toJson (onField l q).toJson) :
    k = l ∧ Json.Same p.toJson q.toJson := by
  rcases hk.cases with ⟨hkdot, -⟩ | ⟨relation, column, rfl, hkdot, -, hcolumn⟩
  · rw [toJson_onField_of_notMem hkdot] at h
    rcases hl.cases with ⟨hldot, -⟩ | ⟨relation, column, rfl, hldot, -, hcolumn⟩
    · rwa [toJson_onField_of_notMem hldot, Json.same_entry_iff] at h
    · rw [toJson_onField_append hldot, Json.same_entry_iff] at h
      exact absurd h.2 (hp.not_same_entry hkdot hcolumn _)
  · rw [toJson_onField_append hkdot] at h
    rcases hl.cases with ⟨hldot, -⟩ | ⟨relation', column', rfl, hldot, -, -⟩
    · rw [toJson_onField_of_notMem hldot, Json.same_entry_iff] at h
      exact absurd h.2.symm (hq.not_same_entry hldot hcolumn _)
    · rw [toJson_onField_append hldot, Json.same_entry_iff, Json.same_entry_iff] at h
      obtain ⟨rfl, rfl, h⟩ := h
      exact ⟨rfl, h⟩

end Condition

/-! ### Requests with one reading -/

/-- Every filter and search asks for something, and no key uses a word of the query language. The
sort key may be any text: it stands in a place of its own. -/
structure Request.Regular (r : Request) : Prop where
  filters : ∀ key value, (key, value) ∈ r.filters.entries → value ≠ .null ∧ value ≠ .array []
  searches : ∀ key value, (key, value) ∈ r.searches.entries → value ≠ .null
  filterKeys : ∀ key value, (key, value) ∈ r.filters.entries → Unreserved key
  searchKeys : ∀ key value, (key, value) ∈ r.searches.entries → Unreserved key
  rangeKeys : ∀ range ∈ r.ranges, Unreserved range.key

/-- No value of a filter looks like a range that runs backwards. Below a key without a dot, no value
and no item of one looks like a column either. -/
structure Request.Literal (r : Request) : Prop where
  ranges : ∀ key value, (key, value) ∈ r.filters.entries → ¬ value.LikeBackwardsRange
  columns : ∀ key value, (key, value) ∈ r.filters.entries → '.' ∉ key.toList → ¬ value.LikeColumn
  items : ∀ key items, (key, .array items) ∈ r.filters.entries → '.' ∉ key.toList →
    ∀ item ∈ items, ¬ item.LikeColumn

namespace Request

variable {r : Request}

theorem SingleTest.readable {key : String} {p : Predicate} (h : r.SingleTest key p)
    (hr : r.Regular) (hl : r.Literal) :
    Unreserved key ∧ p.PlainAt key ∧ ∀ v, p = .equals v → ¬ v.LikeBackwardsRange := by
  cases h with
  | filter h _ =>
    refine ⟨hr.filterKeys _ _ h, hl.columns _ _ h, ?_⟩
    rintro v ⟨⟩
    exact hl.ranges _ _ h
  | search h => exact ⟨hr.searchKeys _ _ h, trivial, nofun⟩
  | range h => exact ⟨hr.rangeKeys _ h, trivial, nofun⟩

theorem OptionTest.readable {key : String} {p : Predicate} (h : r.OptionTest key p)
    (hr : r.Regular) (hl : r.Literal) : Unreserved key ∧ p.PlainAt key ∧ ¬ p.RunsBackwards := by
  cases h with
  | filter h hitem =>
    exact ⟨hr.filterKeys _ _ h, fun hdot => hl.items _ _ h hdot _ hitem, id⟩
  | search h => exact ⟨hr.searchKeys _ _ h, trivial, id⟩

end Request

/-! ### Entries -/

namespace Condition

/-- A specification has nothing against the tests of a condition. -/
def AcceptedBy (s : Specification) (c : Condition) : Prop :=
  ∀ test ∈ c.tests, s.Permits test.1 ∧ ¬ test.2.RunsBackwards

theorem acceptedBy_onField_iff {s : Specification} {key : String} {p : Predicate} :
    (onField key p).AcceptedBy s ↔ s.Permits key ∧ ¬ p.RunsBackwards := by
  rw [AcceptedBy, tests_onField, List.forall_mem_singleton]

theorem acceptedBy_options_iff {s : Specification} {tests : List (String × Predicate)} :
    (or (tests.map fun test => onField test.1 test.2)).AcceptedBy s ↔
      ∀ test ∈ tests, s.Permits test.1 ∧ ¬ test.2.RunsBackwards := by
  rw [AcceptedBy, tests_or, flatMap_tests_onField]

/-- What holds of related members together holds of all members on both sides or on neither. -/
theorem forall_iff_of_forall₂ {α : Type} {R : α → α → Prop} {P : α → Prop} {as bs : List α}
    (h : List.Forall₂ R as bs) (hP : ∀ a ∈ as, ∀ b ∈ bs, R a b → (P a ↔ P b)) :
    (∀ a ∈ as, P a) ↔ ∀ b ∈ bs, P b := by
  induction h with
  | nil => simp
  | @cons a b as bs hab _ ih =>
    rw [List.forall_mem_cons, List.forall_mem_cons, hP a (.head _) b (.head _) hab,
      ih fun a ha b hb => hP a (.tail _ ha) b (.tail _ hb)]

/-- Groups of one kind are written the same if their entries are, one by one. -/
theorem same_group_iff {word : String} {as bs : List Condition} :
    Json.Same (.entry word (.array (entriesToJson as))) (.entry word (.array (entriesToJson bs))) ↔
      List.Forall₂ (fun a b => Json.Same a.toJson b.toJson) as bs := by
  rw [Json.same_entry_iff, Json.same_array_iff, entriesToJson_eq_map, entriesToJson_eq_map,
    List.forall₂_map_left_iff, List.forall₂_map_right_iff]
  exact ⟨And.right, fun h => ⟨rfl, h⟩⟩

/-- Entries that are written the same are accepted together. -/
theorem acceptedBy_iff_of_same {r₁ r₂ : Request} (hr₁ : r₁.Regular) (hr₂ : r₂.Regular)
    (hl₁ : r₁.Literal) (hl₂ : r₂.Literal) (s : Specification) {c d : Condition} (hc : r₁.Entry c)
    (hd : r₂.Entry d) (h : Json.Same c.toJson d.toJson) : c.AcceptedBy s ↔ d.AcceptedBy s := by
  cases hc with
  | test hc =>
    obtain ⟨hk, hp, hpv⟩ := hc.readable hr₁ hl₁
    cases hd with
    | test hd =>
      obtain ⟨hl, hq, hqv⟩ := hd.readable hr₂ hl₂
      obtain ⟨rfl, htest⟩ := same_onField hk hl hp hq h
      have hback := Iff.intro (Predicate.RunsBackwards.of_same hq hqv htest)
        (Predicate.RunsBackwards.of_same hp hpv htest.symm)
      rw [acceptedBy_onField_iff, acceptedBy_onField_iff, hback]
    | options => exact absurd h (not_same_or hk)
  | options hc =>
    cases hd with
    | test hd => exact absurd h.symm (not_same_or (hd.readable hr₂ hl₂).1)
    | options hd =>
      rw [toJson, toJson, same_group_iff, List.forall₂_map_left_iff,
        List.forall₂_map_right_iff] at h
      rw [acceptedBy_options_iff, acceptedBy_options_iff]
      refine forall_iff_of_forall₂ h fun a ha b hb hab => ?_
      obtain ⟨hk, hp, hpb⟩ := (hc a ha).readable hr₁ hl₁
      obtain ⟨hl, hq, hqb⟩ := (hd b hb).readable hr₂ hl₂
      rw [(same_onField hk hl hp hq hab).1]
      simp only [hpb, hqb]

end Condition

/-! ### Requests -/

namespace Specification

variable {s : Specification} {r : Request}

theorem acceptedTests_filterTests_iff {key : String} {value : Json} (h : value ≠ .array []) :
    (∀ test ∈ Request.filterTests key value, s.Permits test.1 ∧ ¬ test.2.RunsBackwards) ↔
      s.Permits key := by
  constructor
  · intro htests
    obtain ⟨p, hp⟩ := Request.exists_mem_filterTests h
    exact (htests _ hp).1
  · intro hkey test htest
    obtain ⟨v, rfl⟩ := Request.exists_of_mem_filterTests htest
    exact ⟨hkey, id⟩

/-- A regular request is accepted if its tests are, and its order and its page. -/
theorem accepts_iff_of_regular (hr : r.Regular) :
    s.Accepts r ↔
      (∀ test ∈ r.tests, s.Permits test.1 ∧ ¬ test.2.RunsBackwards) ∧
        (∀ key, r.orderKey = some key → s.Permits key) ∧
        (∀ p, r.page = some p → p.Positive) ∧ ∀ p, r.rows = some p → s.AllowsRows p := by
  have htests : (∀ test ∈ r.tests, s.Permits test.1 ∧ ¬ test.2.RunsBackwards) ↔
      (∀ key ∈ r.filters.keys, s.Permits key) ∧ (∀ key ∈ r.searches.keys, s.Permits key) ∧
        ∀ range ∈ r.ranges, s.Permits range.key ∧ ¬ Backwards range.start range.stop := by
    simp only [Request.tests, List.forall_mem_append, List.forall_mem_flatMap, List.forall_mem_map,
      Dict.present_eq_entries fun key value h => (hr.filters key value h).1,
      Dict.present_eq_entries hr.searches, Dict.keys, Entries.keys, and_assoc]
    refine and_congr (forall₂_congr fun member hmem => ?_) (and_congr ?_ Iff.rfl)
    · exact acceptedTests_filterTests_iff (hr.filters _ _ hmem).2
    · exact forall₂_congr fun member _ => and_iff_left id
  rw [htests]
  constructor
  · rintro ⟨hkeys, hranges, hpage, hrows⟩
    simp only [Request.keys, List.forall_mem_append, List.forall_mem_map, Option.mem_toList] at hkeys
    obtain ⟨⟨⟨hf, hs⟩, hk⟩, ho⟩ := hkeys
    exact ⟨⟨hf, hs, fun range h => ⟨hk range h, hranges range h⟩⟩, ho, hpage, hrows⟩
  · rintro ⟨⟨hf, hs, hk⟩, ho, hpage, hrows⟩
    refine ⟨?_, fun range h => (hk range h).2, hpage, hrows⟩
    simp only [Request.keys, List.forall_mem_append, List.forall_mem_map, Option.mem_toList]
    exact ⟨⟨⟨hf, hs⟩, fun range h => (hk range h).1⟩, ho⟩

end Specification

namespace Condition

/-- The tests of a request are accepted entry by entry. -/
theorem acceptedBy_entries_iff {s : Specification} {r : Request} :
    (∀ c ∈ (ofRequest r).andEntries, c.AcceptedBy s) ↔
      ∀ test ∈ r.tests, s.Permits test.1 ∧ ¬ test.2.RunsBackwards := by
  have hand : ofRequest r = .and (ofRequest r).andEntries := rfl
  rw [← tests_ofRequest, hand, tests_and, List.forall_mem_flatMap]
  rfl

end Condition

theorem SortOrder.orderKey_eq_of_same {r₁ r₂ : Request}
    (h : Json.Same (SortOrder.ofRequest r₁).toJson (SortOrder.ofRequest r₂).toJson) :
    r₁.orderKey = r₂.orderKey := by
  simp only [SortOrder.ofRequest] at h
  cases h₁ : r₁.orderKey with
  | none =>
    cases h₂ : r₂.orderKey with
    | none => rfl
    | some key =>
      rw [h₁, h₂] at h
      obtain ⟨_, he, -⟩ := h.symm.exists_entry
      simp [toJson, Json.entry] at he
  | some key =>
    cases h₂ : r₂.orderKey with
    | none =>
      rw [h₁, h₂] at h
      obtain ⟨_, he, -⟩ := h.exists_entry
      simp [toJson, Json.entry] at he
    | some key' =>
      rw [h₁, h₂] at h
      exact congrArg some (Json.same_entry_iff.1 h).1

namespace Request

/-- **A query has one verdict**: requests that compile to the same query, and have the same page and
the same rows, are both valid or both not, if none of their values is written like a column below its
key or like a range that runs backwards. -/
theorem isValid_eq_of_same {s : Specification} {r₁ r₂ : Request} (hr₁ : r₁.Regular)
    (hr₂ : r₂.Regular) (hl₁ : r₁.Literal) (hl₂ : r₂.Literal) (hpage : r₁.page = r₂.page)
    (hrows : r₁.rows = r₂.rows)
    (h : Json.Same (Query.ofRequest r₁).toJson (Query.ofRequest r₂).toJson) :
    (r₁.validate (some s)).isValid = (r₂.validate (some s)).isValid := by
  have hwhere : Json.Same (Condition.ofRequest r₁).toJson (Condition.ofRequest r₂).toJson :=
    h.get? "where" rfl rfl
  have horder : Json.Same (SortOrder.ofRequest r₁).toJson (SortOrder.ofRequest r₂).toJson :=
    h.get? "orderBy" rfl rfl
  have hentries := Condition.same_group_iff.1 hwhere
  have haccepted := Condition.forall_iff_of_forall₂ (P := (·.AcceptedBy s)) hentries
    fun c hc d hd hcd => Condition.acceptedBy_iff_of_same hr₁ hr₂ hl₁ hl₂ s (entry_of_mem hc)
      (entry_of_mem hd) hcd
  have htests := Condition.acceptedBy_entries_iff.symm.trans
    (haccepted.trans Condition.acceptedBy_entries_iff)
  rw [Bool.eq_iff_iff, isValid_validate_iff, isValid_validate_iff,
    Specification.accepts_iff_of_regular hr₁, Specification.accepts_iff_of_regular hr₂, htests,
    SortOrder.orderKey_eq_of_same horder, hpage, hrows]

/-- A search and a filter by an operator object are one query, and both are refused. -/
theorem isValid_eq_of_search_and_filter :
    let s := Specification.empty.forbidFields ["title"]
    let r₁ := empty.apply (.search "title" (.string "x"))
    let r₂ := empty.apply (.filter "title" (.entry "contains" (.string "x")))
    r₁.Regular ∧ r₂.Regular ∧ r₁.Literal ∧ r₂.Literal ∧
      Json.Same (Query.ofRequest r₁).toJson (Query.ofRequest r₂).toJson ∧
      (r₁.validate (some s)).isValid = (r₂.validate (some s)).isValid := by
  intro s r₁ r₂
  have hu : Unreserved "title" := by decide +kernel
  have hr₁ : r₁.Regular := by
    constructor <;> simp [r₁, empty, apply, Dict.insert, Dict.empty, Entries.insert, hu]
  have hr₂ : r₂.Regular := by
    constructor <;>
      simp [r₂, empty, apply, Dict.insert, Dict.empty, Entries.insert, Json.entry, hu]
  have hl₁ : r₁.Literal := by
    constructor <;> simp [r₁, empty, apply, Dict.empty]
  have hcolumn : ¬ (Json.entry "contains" (.string "x")).LikeColumn := by
    rintro ⟨column, test, he, hc⟩
    obtain ⟨rfl, -⟩ : "contains" = column ∧ Json.string "x" = test := by simpa [Json.entry] using he
    exact not_unreserved_of_mem (by decide +kernel) hc
  have hrange : ¬ (Json.entry "contains" (.string "x")).LikeBackwardsRange := by
    rintro ⟨lower, upper, h, -⟩
    obtain ⟨_, he, -⟩ := h.symm.exists_entry
    simp [Predicate.rangeObject, Json.entry] at he
  have hl₂ : r₂.Literal := by
    have hfilter : ∀ key value, (key, value) ∈ r₂.filters.entries →
        value = .entry "contains" (.string "x") := by
      simp [r₂, empty, apply, Dict.insert, Dict.empty, Entries.insert]
    exact ⟨fun key value h => hfilter key value h ▸ hrange,
      fun key value h _ => hfilter key value h ▸ hcolumn,
      fun key items h => absurd (hfilter key _ h) (by simp [Json.entry])⟩
  have h : Json.Same (Query.ofRequest r₁).toJson (Query.ofRequest r₂).toJson := by
    rw [show (Query.ofRequest r₁).toJson = (Query.ofRequest r₂).toJson by decide +kernel]
    exact Json.same_refl _
  exact ⟨hr₁, hr₂, hl₁, hl₂, h, isValid_eq_of_same hr₁ hr₂ hl₁ hl₂ rfl rfl h⟩

/-- One query in two forms, of which the second is refused and the first is not. -/
structure Evades (s : Specification) (r₁ r₂ : Request) : Prop where
  regular : r₁.Regular ∧ r₂.Regular
  page : r₁.page = r₂.page ∧ r₁.rows = r₂.rows
  query : (Query.ofRequest r₁).toJson = (Query.ofRequest r₂).toJson
  accepted : (r₁.validate (some s)).isValid = true
  refused : (r₂.validate (some s)).isValid = false

/-- A value that looks like a column evades the relations that are allowed, and one that looks like
a range evades the order of its dates. -/
theorem same_query_other_verdict :
    Evades (Specification.empty.allowRelations [])
        (empty.apply (.filter "author" (.object [("name", .string "Ada")])))
        (empty.apply (.filter "author.name" (.string "Ada"))) ∧
      Evades Specification.empty
        (empty.apply (.filter "born" (.object
          [("gte", .string "2023-12-31T00:00:00Z"), ("lte", .string "2023-01-01T00:00:00Z")])))
        (empty.apply (.range "born" (.string "2023-12-31T00:00:00Z")
          (.string "2023-01-01T00:00:00Z"))) := by
  have hu : Unreserved "author" ∧ Unreserved "author.name" ∧ Unreserved "born" := by
    decide +kernel
  have hregular : ∀ key value, Unreserved key → value ≠ .null → value ≠ .array [] →
      (empty.apply (.filter key value)).Regular := by
    intro key value hkey hnull harray
    constructor <;> simp [empty, apply, Dict.insert, Dict.empty, Entries.insert, *]
  have hrange : (empty.apply (.range "born" (.string "2023-12-31T00:00:00Z")
      (.string "2023-01-01T00:00:00Z"))).Regular := by
    constructor <;> simp [empty, apply, Dict.empty, hu.2.2]
  constructor
  · exact ⟨⟨hregular _ _ hu.1 (by simp) (by simp), hregular _ _ hu.2.1 (by simp) (by simp)⟩,
      ⟨rfl, rfl⟩, by decide +kernel, by decide +kernel, by decide +kernel⟩
  · exact ⟨⟨hregular _ _ hu.2.2 (by simp) (by simp), hrange⟩, ⟨rfl, rfl⟩, by decide +kernel,
      by decide +kernel, by decide +kernel⟩

end Request

end ListQuery
