import ListQuery.Proofs.ResolvedLeaves

/-!
# Resolving twice

A resolved condition is a condition again and can be resolved a second time. The first resolution
has pruned every group that it left empty, so the second one can only act on leaves:

* a mapping leaves a condition as it is exactly if it is `Condition.matchAll`, or has no empty group
  and only leaves that the mapping leaves as they are (`resolve_eq_self_iff`);
* so a second resolution changes nothing exactly if it changes nothing leaf by leaf, at the path
  that the leaf has by then (`resolve_resolve_eq_iff`).

Under the mapping that is empty every value is taken out of its wrapper and wrapped again by its
kind. What the first pass wraps, the second unwraps to the same value, except for an object: it is
written as it is, and so it is taken for a wrapper itself and loses one layer. An object without
members has no layer to lose (`resolve_empty_twice_iff`).
-/

namespace ListQuery

/-! ### Unwrapping -/

namespace Json

theorem sizeOf_lt_of_get? {key : String} {inner : Json} {members : List (String × Json)}
    (h : Entries.get? key members = some inner) : sizeOf inner < sizeOf members := by
  have hpair := List.sizeOf_lt_of_mem (Entries.mem_of_get? h)
  simp only [Prod.mk.sizeOf_spec] at hpair
  omega

/-- An object is unwrapped to a part of itself, whichever of its members is the wrapped one. -/
theorem sizeOf_unwrap_object_lt {members : List (String × Json)} (hne : members ≠ [])
    (hequals : ∀ inner, unwrap.unwrapEquals members = some inner → sizeOf inner < sizeOf members) :
    sizeOf (object members).unwrap < sizeOf members := by
  unfold unwrap
  split
  · rename_i inner h
    exact sizeOf_lt_of_get? h
  split
  · rename_i inner h
    exact hequals inner h
  split
  · rename_i inner h
    rcases Option.or_eq_some_iff.1 h with h | ⟨-, h⟩
    · exact sizeOf_lt_of_get? h
    · exact sizeOf_lt_of_get? h
  cases members with
  | nil => exact absurd rfl hne
  | cons member rest =>
    obtain ⟨key, first⟩ := member
    simp only [List.cons.sizeOf_spec, Prod.mk.sizeOf_spec]
    omega

mutual

theorem sizeOf_unwrap_le : ∀ v : Json, sizeOf v.unwrap ≤ sizeOf v
  | .object [] => Nat.le_refl _
  | .object (member :: rest) => by
    have := sizeOf_unwrap_object_lt (List.cons_ne_nil member rest)
      fun _ h => sizeOf_unwrapEquals_lt (member :: rest) h
    rw [object.sizeOf_spec]
    omega
  | .null | .bool _ | .number _ | .string _ | .array _ => Nat.le_refl _

theorem sizeOf_unwrapEquals_lt : ∀ (members : List (String × Json)) {inner : Json},
    unwrap.unwrapEquals members = some inner → sizeOf inner < sizeOf members
  | [], _, h => by simp [unwrap.unwrapEquals] at h
  | (key, v) :: rest, inner, h => by
    rw [unwrap.unwrapEquals] at h
    split at h
    · obtain rfl := Option.some.inj h
      have := sizeOf_unwrap_le v
      simp only [List.cons.sizeOf_spec, Prod.mk.sizeOf_spec]
      omega
    · have := sizeOf_unwrapEquals_lt rest h
      simp only [List.cons.sizeOf_spec]
      omega

end

theorem unwrap_object_ne (member : String × Json) (rest : List (String × Json)) :
    (object (member :: rest)).unwrap ≠ object (member :: rest) := by
  intro h
  have hlt := sizeOf_unwrap_object_lt (List.cons_ne_nil member rest)
    fun _ h => sizeOf_unwrapEquals_lt (member :: rest) h
  rw [h, object.sizeOf_spec] at hlt
  omega

/-- Only an object is a wrapper, and one without members has nothing in it. -/
theorem unwrap_eq_self_iff {v : Json} :
    v.unwrap = v ↔ ∀ member rest, v ≠ .object (member :: rest) := by
  cases v with
  | null | bool | number | string | array => simp [unwrap]
  | object members =>
    cases members with
    | nil => simp [unwrap, Entries.get?, unwrap.unwrapEquals]
    | cons member rest =>
      refine ⟨fun h => absurd h (unwrap_object_ne member rest), ?_⟩
      intro h
      exact absurd rfl (h member rest)

end Json

/-! ### Wrapping by kind -/

namespace Predicate

/-- The predicate as a field without a declared type has it: a range stays, and every other value is
wrapped by its kind. -/
def byKind (p : Predicate) : Predicate := if p.isRange then p else .ofRaw p.rawValue

theorem process_none (p : Predicate) : p.process none = some p.byKind := by
  cases p <;> rfl

theorem isRange_ofRaw (raw : Json) : (ofRaw raw).isRange = false := by
  cases raw <;> rfl

theorem ofRaw_injective : Function.Injective ofRaw := by
  intro v w hvw
  cases v <;> cases w <;> simp_all [ofRaw]

theorem rawValue_ofRaw (raw : Json) : (ofRaw raw).rawValue = raw.unwrap := by
  cases raw <;> rfl

/-- A value that is wrapped by its kind is found again in its wrapper, unless it is an object. -/
theorem rawValue_ofRaw_iff (raw : Json) :
    ofRaw (ofRaw raw).rawValue = ofRaw raw ↔ ∀ member rest, raw ≠ .object (member :: rest) := by
  rw [rawValue_ofRaw, ofRaw_injective.eq_iff, Json.unwrap_eq_self_iff]

theorem byKind_byKind_iff (p : Predicate) :
    p.byKind.byKind = p.byKind ↔
      (p.isRange = false → ∀ member rest, p.rawValue ≠ .object (member :: rest)) := by
  cases h : p.isRange with
  | true => simp [byKind, h]
  | false => simp only [byKind, h, isRange_ofRaw, Bool.false_eq_true, if_false, rawValue_ofRaw_iff,
      true_implies]

end Predicate

/-! ### What a mapping leaves as it is -/

theorem Condition.enclose_injective (e : Enclosure) : Function.Injective (enclose e) := by
  rintro ⟨chain, leaf⟩ ⟨chain', leaf'⟩ h
  simpa [enclose] using h

namespace Mapping

open Condition

variable (m : Mapping)

/-- Below an enclosure a leaf stays as it is if it does with the enclosure around it. -/
theorem resolveLeafIn_eq_self_of_enclose {scope : String} {e : Enclosure}
    {leaves : List (List Enclosure × Leaf)}
    (h : ∀ leaf ∈ leaves.map (enclose e), m.resolveLeafIn scope leaf = some leaf) :
    ∀ leaf ∈ leaves, m.resolveLeafIn (scope ++ e.scope) leaf = some leaf := by
  intro leaf hleaf
  have he := h _ (List.mem_map_of_mem hleaf)
  rw [m.resolveLeafIn_enclose, Option.map_eq_some_iff] at he
  obtain ⟨leaf', hleaf', henclose⟩ := he
  rwa [enclose_injective e henclose] at hleaf'

theorem resolveField_eq_self {scope name : String} {p : Predicate}
    (h : m.resolveLeafIn scope ([], .field name p) = some ([], .field name p)) :
    m.resolveField (scope ++ name) name p = some (.field name p) := by
  rw [resolveLeafIn, Enclosure.path_nil] at h
  cases hr : m.resolveField (scope ++ name) name p with
  | none => simp [hr] at h
  | some c =>
    rcases m.resolveField_cases hr with
      ⟨q, rfl⟩ | ⟨relation, -, ⟨value, rfl⟩ | ⟨quantifier, q, rfl⟩⟩
    · simpa [hr, onlyLeaf?, leaves] using h
    · simp [hr, onlyLeaf?, leaves] at h
    · simp [hr, onlyLeaf?, leaves, enclose] at h

mutual

/-- A condition without empty groups stays as it is if its leaves do. -/
theorem resolveIn_eq_self : ∀ (c : Condition) (scope : String), c.Trimmed →
    (∀ leaf ∈ c.leaves, m.resolveLeafIn scope leaf = some leaf) → m.resolveIn scope c = some c
  | .and entries, scope, ht, hl | .or entries, scope, ht, hl => by
    rw [leaves] at hl
    have hentries := resolveEntries_eq_self entries scope ht.2
      (by simpa [Enclosure.scope] using m.resolveLeafIn_eq_self_of_enclose hl)
    rw [resolveIn, hentries, group_eq_some_iff]
    exact ⟨ht.1, rfl⟩
  | .related relation quantifier body, scope, ht, hl => by
    rw [leaves] at hl
    rw [Trimmed] at ht
    have hbody := resolveIn_eq_self body (scope ++ relation ++ ".") ht
      (by simpa [Enclosure.scope, String.append_assoc] using m.resolveLeafIn_eq_self_of_enclose hl)
    rw [resolveIn, hbody]
    rfl
  | .field name p, scope, _, hl => by
    rw [leaves, List.forall_mem_singleton] at hl
    rw [resolveIn, m.resolveField_eq_self hl]
  | .custom _, _, _, _ => rfl
  | .matchAll, _, ht, _ => ht.elim

theorem resolveEntries_eq_self : ∀ (entries : List Condition) (scope : String),
    AllTrimmed entries → (∀ leaf ∈ leavesOf entries, m.resolveLeafIn scope leaf = some leaf) →
      m.resolveEntries scope entries = entries
  | [], _, _, _ => rfl
  | entry :: rest, scope, ht, hl => by
    rw [leavesOf, List.forall_mem_append] at hl
    rw [resolveEntries, resolveIn_eq_self entry scope ht.1 hl.1,
      resolveEntries_eq_self rest scope ht.2 hl.2]

end

/-- If a list is what is left of itself, nothing in it was dropped or changed. -/
theorem eq_some_of_filterMap_eq_self {α : Type} {f : α → Option α} {l : List α}
    (h : l.filterMap f = l) : ∀ a ∈ l, f a = some a := by
  induction l with
  | nil => simp
  | cons a rest ih =>
    cases ha : f a with
    | none =>
      rw [List.filterMap_cons_none ha] at h
      have hle := List.length_filterMap_le f rest
      rw [h, List.length_cons] at hle
      omega
    | some b =>
      rw [List.filterMap_cons_some ha, List.cons.injEq] at h
      obtain ⟨rfl, hrest⟩ := h
      exact List.forall_mem_cons.2 ⟨ha, ih hrest⟩

/-- A mapping leaves exactly those conditions as they are that have nothing to prune and no leaf to
change. -/
theorem resolve_eq_self_iff (c : Condition) :
    m.resolve c = c ↔
      (c = .matchAll ∨ c.Trimmed) ∧ ∀ leaf ∈ c.leaves, m.resolveLeaf leaf = some leaf := by
  constructor
  · intro h
    have ht := m.resolve_trimmed c
    have hl := m.leaves_resolve_eq c
    rw [h] at ht hl
    exact ⟨ht, eq_some_of_filterMap_eq_self hl.symm⟩
  · rintro ⟨rfl | ht, hl⟩
    · rfl
    · rw [resolve, m.resolveIn_eq_self c "" ht hl]
      rfl

/-- A second resolution is harmless exactly if it is for each leaf that the first one leaves. -/
theorem resolve_resolve_eq_iff (c : Condition) :
    m.resolve (m.resolve c) = m.resolve c ↔
      ∀ leaf ∈ c.leaves, ∀ leaf', m.resolveLeaf leaf = some leaf' →
        m.resolveLeaf leaf' = some leaf' := by
  rw [resolve_eq_self_iff, leaves_resolve_eq]
  simp only [m.resolve_trimmed c, true_and, List.mem_filterMap, forall_exists_index, and_imp]
  exact ⟨fun h leaf hleaf leaf' hl => h leaf' leaf hleaf hl,
    fun h leaf' leaf hleaf hl => h leaf hleaf leaf' hl⟩

/-! ### The mapping that is empty -/

theorem resolveLeaf_empty_field (chain : List Enclosure) (name : String) (p : Predicate) :
    empty.resolveLeaf (chain, .field name p) = some (chain, .field name p.byKind) := by
  have h : empty.resolveField (Enclosure.path chain name) name p = some (.field name p.byKind) := by
    rw [empty.resolveField_of_unmapped (by rfl)]
    exact congrArg (Option.map (Condition.field name)) p.process_none
  simp [resolveLeaf, resolveLeafIn, h, onlyLeaf?, leaves]

/-- **When a second pass is harmless**: under the empty mapping exactly if no field is asked, other
than by a range, for an object that has members. -/
theorem resolve_empty_twice_iff (c : Condition) :
    empty.resolve (empty.resolve c) = empty.resolve c ↔
      ∀ chain name p, (chain, .field name p) ∈ c.leaves → p.isRange = false →
        ∀ member rest, p.rawValue ≠ .object (member :: rest) := by
  rw [resolve_resolve_eq_iff]
  constructor
  · intro h chain name p hleaf
    have hp := h _ hleaf _ (resolveLeaf_empty_field chain name p)
    rw [resolveLeaf_empty_field] at hp
    exact (Predicate.byKind_byKind_iff p).1 (by simpa using hp)
  · rintro h ⟨chain, ⟨name, p⟩ | value⟩ hleaf leaf' hl
    · rw [resolveLeaf_empty_field] at hl
      obtain rfl := Option.some.inj hl
      rw [resolveLeaf_empty_field, (Predicate.byKind_byKind_iff p).2 (h chain name p hleaf)]
    · obtain rfl : (chain, Leaf.custom value) = leaf' := Option.some.inj hl
      rfl

/-- Of two layers around a value the first pass takes one off, and the second the other. -/
example :
    let c := Condition.field "a" (.equals (.entry "b" (.entry "c" .null)))
    empty.resolve c = .field "a" (.custom (.entry "c" .null)) ∧
      empty.resolve (empty.resolve c) = .field "a" (.compare .equals .null) := ⟨rfl, rfl⟩

end Mapping

end ListQuery
