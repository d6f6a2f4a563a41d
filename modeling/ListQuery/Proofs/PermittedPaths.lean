import ListQuery.Proofs.Acceptance
import ListQuery.Proofs.CompiledEntries

/-!
# Accepted requests stay on permitted paths

A specification is checked against the keys of a request as the client wrote them. The query holds
them in another form: a key is cut at its first dot into a relation and a column, an array repeats
its key for each item, several searches stand in a group of their own, and only the sort key is
kept whole. What the query reaches is read off the query itself: the dotted path of every field
(`Condition.leaves`), the name of every relation at any depth (`Condition.relations`), and the field
that it is sorted by.

`ofRequest_permitted` says that a valid request reaches nothing that its specification does not
permit. It rests on two facts about the condition of any request: the paths of its fields are keys
of the request (`key_mem_keys`), and its relations are what stands in front of their first dots
(`relation_of_entry`).
-/

namespace ListQuery

/-! ### Relations of a condition -/

namespace Condition

mutual

/-- The relations that a condition goes through, at any depth. -/
def relations : Condition → List String
  | .and entries | .or entries => relationsOf entries
  | .related relation _ body => relation :: body.relations
  | .field _ _ | .custom _ | .matchAll => []

/-- The relations of conditions in order. -/
def relationsOf : List Condition → List String
  | [] => []
  | entry :: rest => entry.relations ++ relationsOf rest

end

theorem mem_relationsOf_iff {entries : List Condition} {relation : String} :
    relation ∈ relationsOf entries ↔ ∃ c ∈ entries, relation ∈ c.relations := by
  induction entries with
  | nil => simp [relationsOf]
  | cons entry rest ih => simp [relationsOf, ih]

/-- A test goes through the relation of its key. -/
theorem mem_relations_onField_iff {key relation : String} {p : Predicate} :
    relation ∈ (onField key p).relations ↔ ∃ column, FirstDot key (some relation) column := by
  simp only [firstDot_iff, exists_and_left, exists_eq', and_true]
  rw [onField]
  cases FieldPath.ofString key with
  | column name => simp [onPath, relations, FieldPath.relation?]
  | related relation' column => simp [onPath, relations, FieldPath.relation?, eq_comm]

/-- An entry of a request goes through no other relations than those of its tests. -/
theorem relation_of_entry {r : Request} {c : Condition} (h : r.Entry c) {relation : String}
    (hr : relation ∈ c.relations) :
    ∃ test ∈ c.tests, ∃ column, FirstDot test.1 (some relation) column := by
  cases h with
  | @test key p _ =>
    refine ⟨(key, p), ?_, mem_relations_onField_iff.1 hr⟩
    rw [tests_onField, List.mem_singleton]
  | @options tests _ =>
    rw [tests_or, flatMap_tests_onField]
    rw [relations, mem_relationsOf_iff] at hr
    obtain ⟨c, hc, hr⟩ := hr
    obtain ⟨test, htest, rfl⟩ := List.mem_map.1 hc
    exact ⟨test, htest, mem_relations_onField_iff.1 hr⟩

end Condition

/-! ### Keys of the tests -/

namespace Request

/-- A request tests nothing but what its keys name. -/
theorem key_mem_keys {r : Request} {test : String × Predicate} (h : test ∈ r.tests) :
    test.1 ∈ r.keys := by
  simp only [tests, List.mem_append, List.mem_flatMap, List.mem_map] at h
  simp only [keys, List.mem_append]
  rcases h with (⟨member, hmem, htest⟩ | ⟨member, hmem, rfl⟩) | ⟨range, hmem, rfl⟩
  · obtain ⟨v, rfl⟩ := exists_of_mem_filterTests htest
    exact .inl (.inl (.inl (List.mem_map_of_mem (Dict.mem_present.1 hmem).1)))
  · exact .inl (.inl (.inr (List.mem_map_of_mem (Dict.mem_present.1 hmem).1)))
  · exact .inl (.inr (List.mem_map_of_mem hmem))

end Request

/-! ### The compiled query -/

namespace Query

variable {r : Request} {s : Specification}

theorem field_permitted (h : s.Accepts r) {chain : List Enclosure} {name : String} {p : Predicate}
    (hleaf : (chain, .field name p) ∈ (ofRequest r).condition.leaves) :
    s.Permits (Enclosure.path chain name) := by
  have htest := Condition.mem_tests hleaf
  rw [ofRequest, Condition.tests_ofRequest] at htest
  exact h.keys _ (Request.key_mem_keys htest)

theorem relation_permitted (h : s.Accepts r) {relation : String}
    (hr : relation ∈ (ofRequest r).condition.relations) : s.AllowsRelation relation := by
  obtain ⟨c, hc, hr⟩ := Condition.mem_relationsOf_iff.1 hr
  obtain ⟨test, htest, column, hcut⟩ := Condition.relation_of_entry (Request.entry_of_mem hc) hr
  have hmem : test ∈ (Condition.ofRequest r).tests := by
    rw [Condition.ofRequest, Condition.tests_and]
    exact List.mem_flatMap.2 ⟨c, hc, htest⟩
  rw [Condition.tests_ofRequest] at hmem
  exact (h.keys _ (Request.key_mem_keys hmem)).relation relation column hcut

theorem order_permitted (h : s.Accepts r) {name : String} {direction : Direction}
    (ho : (ofRequest r).order = .field name direction) : s.Permits name := by
  refine h.keys _ (List.mem_append_right _ ?_)
  simp only [ofRequest, SortOrder.ofRequest] at ho
  cases hkey : r.orderKey with
  | none => simp [hkey] at ho
  | some key =>
    rw [hkey] at ho
    injection ho with hname
    simp [hname]

/-- **What a valid request reaches is permitted**: the path of every field of its condition, every
relation that the condition goes through, and the field that the list is sorted by, with the
relation in front of its first dot. -/
theorem ofRequest_permitted (h : (r.validate (some s)).isValid = true) :
    (∀ chain name p, (chain, .field name p) ∈ (ofRequest r).condition.leaves →
      Enclosure.path chain name ∉ s.forbiddenFields) ∧
    (∀ relation ∈ (ofRequest r).condition.relations, s.AllowsRelation relation) ∧
    ∀ name direction, (ofRequest r).order = .field name direction →
      name ∉ s.forbiddenFields ∧
        ∀ relation column, FirstDot name (some relation) column → s.AllowsRelation relation := by
  have h := Request.isValid_validate_iff.1 h
  refine ⟨fun chain name p hleaf => (field_permitted h hleaf).notForbidden,
    fun relation hr => relation_permitted h hr, fun name direction ho => ?_⟩
  have hname := order_permitted h ho
  exact ⟨hname.notForbidden, hname.relation⟩

/-- Two options below a relation, and a sort key with the same path. -/
theorem permitted_options_of_author :
    let s := (Specification.empty.forbidFields ["author.email"]).allowRelations ["author"]
    let r := (Request.empty.apply (.filter "author.name" (.array [.string "Ada", .null]))).apply
      (.order "author.name" (some .desc))
    (r.validate (some s)).isValid = true ∧
      (ofRequest r).condition.leaves.length = 2 ∧
      (∀ chain name p, (chain, .field name p) ∈ (ofRequest r).condition.leaves →
        Enclosure.path chain name ∉ s.forbiddenFields) ∧
      (ofRequest r).condition.relations = ["author", "author"] ∧ s.AllowsRelation "author" ∧
      "author.name" ∉ s.forbiddenFields := by
  intro s r
  have h : (r.validate (some s)).isValid = true := by decide +kernel
  have hr : (ofRequest r).condition.relations = ["author", "author"] := by decide +kernel
  obtain ⟨hfields, hrelations, horder⟩ := ofRequest_permitted h
  exact ⟨h, by decide +kernel, hfields, hr, hrelations "author" (by rw [hr]; decide),
    (horder _ _ rfl).1⟩

end Query

end ListQuery
