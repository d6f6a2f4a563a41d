import ListQuery.Proofs.ResolvedLeaves

/-!
# Why a field is dropped

A mapping may leave a field out of a condition, and the rows that the field kept out are then in the
result. So there is a list of reasons (`Mapping.Drops`), and a field that none of them holds of stays
as one condition.

What can drop a field is asked in this order, and the first that is there decides:

* a custom function of the relation that the field is moved to,
* a custom function of its type,
* its type, if that is number or date: each value that the field is asked for has to be one.

A range is asked for by two values, and it is dropped with either of them. So of a range that stays,
both bounds were read by the same function, or both were kept (`resolveField_range`).
-/

namespace ListQuery

/-! ### Values that are read -/

namespace Predicate

/-- The values that a predicate asks for: both bounds of a range, or the raw value. -/
def operands : Predicate → List Json
  | .range lower upper => [lower, upper]
  | p => [p.rawValue]

/-- One of the values is no number, or no date, although the field has this type. -/
inductive Rejected (p : Predicate) : FieldType → Prop where
  | number {v : Json} (hv : v ∈ p.operands) (h : v.toNumber? = none) : p.Rejected .number
  | date {v : Json} (hv : v ∈ p.operands) (h : v.toDate? = none) : p.Rejected .date

/-- Only numbers and dates can be rejected. -/
theorem Rejected.type_eq {p : Predicate} {type : FieldType} (h : p.Rejected type) :
    type = .number ∨ type = .date := by
  cases h with
  | number => exact .inl rfl
  | date => exact .inr rfl

theorem rejected_iff {p : Predicate} {type : FieldType} :
    p.Rejected type ↔ ∃ v ∈ p.operands, TypeHandler.coerceBound type v = none := by
  constructor
  · rintro (⟨hv, h⟩ | ⟨hv, h⟩)
    · exact ⟨_, hv, h⟩
    · exact ⟨_, hv, h⟩
  · rintro ⟨v, hv, h⟩
    cases type with
    | number => exact .number hv h
    | date => exact .date hv h
    | string | boolean | custom => cases h

variable {p : Predicate} {h : TypeHandler}

theorem process_of_isRange_eq_false (hp : p.isRange = false) (h : TypeHandler) :
    p.process (some h) = h.ofRaw p.rawValue := by
  cases p with
  | range lower upper => cases hp
  | equals | contains | compare | custom => rfl

/-- A custom function gets the raw value, of a range the object of its bounds. -/
theorem process_of_custom {custom : Json → Option Json} (hc : h.custom = some custom)
    (p : Predicate) : p.process (some h) = (custom p.rawValue).map .custom := by
  cases p with
  | range lower upper =>
    show h.ofRange lower upper = _
    rw [TypeHandler.ofRange, hc]
    rfl
  | equals | contains | compare | custom =>
    rw [process_of_isRange_eq_false rfl, TypeHandler.ofRaw, hc]

/-- Without a custom function a range stays one, and each bound is read. -/
theorem process_range (hc : h.custom = none) (lower upper : Json) :
    (range lower upper).process (some h) =
      (TypeHandler.coerceBound h.type lower).bind fun lower' =>
        (TypeHandler.coerceBound h.type upper).map (.range lower') := by
  show h.ofRange lower upper = _
  rw [TypeHandler.ofRange, hc]
  cases TypeHandler.coerceBound h.type lower with
  | none => rfl
  | some lower' => cases TypeHandler.coerceBound h.type upper <;> rfl

theorem ofRaw_eq_none_iff (hc : h.custom = none) (raw : Json) :
    h.ofRaw raw = none ↔ TypeHandler.coerceBound h.type raw = none := by
  rw [TypeHandler.ofRaw, hc]
  cases h.type with
  | number | date => exact Option.map_eq_none_iff
  | string | boolean | custom => simp [TypeHandler.coerceBound]

/-- Without a custom function exactly the rejected values are dropped. -/
theorem process_eq_none_iff (hc : h.custom = none) :
    p.process (some h) = none ↔ p.Rejected h.type := by
  rw [rejected_iff]
  cases p with
  | range lower upper =>
    rw [process_range hc]
    cases hlower : TypeHandler.coerceBound h.type lower <;> simp [operands, hlower]
  | equals | contains | compare | custom =>
    rw [process_of_isRange_eq_false rfl, ofRaw_eq_none_iff hc]
    simp [operands]

end Predicate

namespace Mapping

open Condition

variable (m : Mapping)

/-! ### Custom functions -/

/-- The custom function of the relation that a path is moved to. -/
def relationCustom? (path : String) : Option (Json → String → Option Json) :=
  (m.relations.get? path).bind fun _ => (m.relationHandlers.get? path).bind RelationHandler.custom

/-- The custom function of the type at a path. -/
def typeCustom? (path : String) : Option (Json → Option Json) :=
  (m.typeHandlers.get? path).bind TypeHandler.custom

/-- The reasons for which a field at a path is dropped. -/
inductive Drops (path name : String) (p : Predicate) : Prop where
  /-- The custom function of its relation has no result. -/
  | byRelation {custom : Json → String → Option Json} (h : m.relationCustom? path = some custom)
    (hnone : custom p.rawValue (m.columnFor path name) = none)
  /-- There is none, and the custom function of its type has no result. -/
  | byType {custom : Json → Option Json} (hr : m.relationCustom? path = none)
    (h : m.typeCustom? path = some custom) (hnone : custom p.rawValue = none)
  /-- There is neither, and a value cannot be read as its type. -/
  | byValue {h : TypeHandler} (hr : m.relationCustom? path = none)
    (ht : m.typeCustom? path = none) (hh : m.typeHandlers.get? path = some h)
    (hrejected : p.Rejected h.type)

variable {m} {path : String}

theorem resolveField_of_relationCustom? {custom : Json → String → Option Json}
    (h : m.relationCustom? path = some custom) (name : String) (p : Predicate) :
    m.resolveField path name p =
      (custom p.rawValue (m.columnFor path name)).map .custom := by
  obtain ⟨relation, hr, hc⟩ := Option.bind_eq_some_iff.1 h
  exact m.resolveField_of_custom hr hc

/-- Without a custom function of a relation, a field is what its type makes of it, in place or below
its relation. -/
theorem exists_place (h : m.relationCustom? path = none) (name : String) :
    ∃ place : Predicate → Condition,
      (∀ q, (place q).leaves = [(m.detour path, .field (m.columnFor path name) q)]) ∧
        ∀ p, m.resolveField path name p = (p.process (m.typeHandlers.get? path)).map place := by
  cases hr : m.relations.get? path with
  | none =>
    refine ⟨.field (m.columnFor path name), ?_, fun p => m.resolveField_of_unmapped hr⟩
    intro q
    simp [leaves, detour, hr]
  | some relation =>
    rw [relationCustom?, hr] at h
    refine ⟨_, ?_, fun p => m.resolveField_of_mapped hr h⟩
    intro q
    simp [leaves, detour, hr, enclose]

/-! ### Dropped fields -/

theorem process_eq_none_iff_of_custom {custom : Json → Option Json}
    (h : m.typeCustom? path = some custom) (p : Predicate) :
    p.process (m.typeHandlers.get? path) = none ↔ custom p.rawValue = none := by
  obtain ⟨handler, hh, hc⟩ := Option.bind_eq_some_iff.1 h
  rw [hh, Predicate.process_of_custom hc]
  exact Option.map_eq_none_iff

theorem process_eq_none_iff_of_no_custom (h : m.typeCustom? path = none) (p : Predicate) :
    p.process (m.typeHandlers.get? path) = none ↔
      ∃ handler, m.typeHandlers.get? path = some handler ∧ p.Rejected handler.type := by
  rw [typeCustom?] at h
  cases hh : m.typeHandlers.get? path with
  | none => cases p <;> simp [Predicate.process]
  | some handler =>
    rw [hh] at h
    have hc : handler.custom = none := h
    rw [Predicate.process_eq_none_iff hc]
    simp

theorem resolveField_eq_none_iff {name : String} {p : Predicate} :
    m.resolveField path name p = none ↔ m.Drops path name p := by
  cases hr : m.relationCustom? path with
  | some custom =>
    rw [resolveField_of_relationCustom? hr, Option.map_eq_none_iff]
    constructor
    · exact Drops.byRelation hr
    · rintro (⟨h, hnone⟩ | ⟨h⟩ | ⟨h⟩)
      · obtain rfl := Option.some.inj (hr.symm.trans h)
        exact hnone
      · cases hr.symm.trans h
      · cases hr.symm.trans h
  | none =>
    obtain ⟨place, -, hplace⟩ := exists_place hr name
    rw [hplace, Option.map_eq_none_iff]
    cases ht : m.typeCustom? path with
    | some custom =>
      rw [process_eq_none_iff_of_custom ht]
      constructor
      · exact Drops.byType hr ht
      · rintro (⟨h, -⟩ | ⟨-, h, hnone⟩ | ⟨-, h⟩)
        · cases hr.symm.trans h
        · obtain rfl := Option.some.inj (ht.symm.trans h)
          exact hnone
        · cases ht.symm.trans h
    | none =>
      rw [process_eq_none_iff_of_no_custom ht]
      constructor
      · rintro ⟨handler, hh, hrejected⟩
        exact .byValue hr ht hh hrejected
      · rintro (⟨h, -⟩ | ⟨-, h, -⟩ | ⟨-, -, hh, hrejected⟩)
        · cases hr.symm.trans h
        · cases ht.symm.trans h
        · exact ⟨_, hh, hrejected⟩

/-- What a mapping makes of a field has one leaf. -/
theorem exists_leaf {name : String} {p : Predicate} {c : Condition}
    (h : m.resolveField path name p = some c) : ∃ leaf, c.leaves = [leaf] := by
  rcases m.resolveField_cases h with
    ⟨q, rfl⟩ | ⟨relation, -, ⟨value, rfl⟩ | ⟨quantifier, q, rfl⟩⟩
  · exact ⟨_, by rw [leaves]⟩
  · exact ⟨_, by rw [leaves]⟩
  · exact ⟨_, by rw [leaves, leaves, List.map_singleton]⟩

theorem resolveLeaf_eq_none_iff {chain : List Enclosure} {name : String} {p : Predicate} :
    m.resolveLeaf (chain, .field name p) = none ↔ m.Drops (Enclosure.path chain name) name p := by
  rw [resolveLeaf, resolveLeafIn, String.empty_append, ← resolveField_eq_none_iff]
  cases h : m.resolveField (Enclosure.path chain name) name p with
  | none => simp
  | some c =>
    obtain ⟨leaf, hleaf⟩ := exists_leaf h
    simp [onlyLeaf?, hleaf]

/-! ### Ranges -/

/-- How both bounds of a range at a path are read: as its type, if that is number or date; otherwise
they are kept. -/
def boundReader (m : Mapping) (path : String) : Json → Option Json :=
  match (m.typeHandlers.get? path).map TypeHandler.type with
  | some .number => Json.toNumber?
  | some .date => Json.toDate?
  | _ => some

/-- Without a custom function, the range that is left has both bounds as its reader has them. -/
theorem resolveField_range (hr : m.relationCustom? path = none) (ht : m.typeCustom? path = none)
    {name : String} {lower upper : Json} {c : Condition}
    (h : m.resolveField path name (.range lower upper) = some c) :
    ∃ lower' upper', m.boundReader path lower = some lower' ∧
      m.boundReader path upper = some upper' ∧
      c.leaves = [(m.detour path, .field (m.columnFor path name) (.range lower' upper'))] := by
  obtain ⟨place, hleaves, hplace⟩ := exists_place hr name
  rw [hplace, Option.map_eq_some_iff] at h
  obtain ⟨q, hq, rfl⟩ := h
  rw [typeCustom?] at ht
  cases hh : m.typeHandlers.get? path with
  | none =>
    rw [hh] at hq
    obtain rfl := Option.some.inj hq
    refine ⟨lower, upper, ?_, ?_, hleaves _⟩ <;> rw [boundReader, hh] <;> rfl
  | some handler =>
    rw [hh] at hq ht
    rw [Predicate.process_range ht, Option.bind_eq_some_iff] at hq
    obtain ⟨lower', hlower, hq⟩ := hq
    obtain ⟨upper', hupper, rfl⟩ := Option.map_eq_some_iff.1 hq
    have hreader : m.boundReader path = TypeHandler.coerceBound handler.type := by
      rw [boundReader, hh]
      cases handler with
      | mk type operator custom => cases type <;> rfl
    rw [hreader]
    exact ⟨lower', upper', hlower, hupper, hleaves _⟩

/-! ### What is dropped and what stays -/

/-- **Dropped fields.** Where a mapping meets a field, it leaves the field out exactly for one of the
reasons, and without one the field becomes a single test. In a whole condition the same leaves are
missing and no other. A range that no custom function takes stays a range, and both of its bounds
went through the same reader. -/
theorem resolveIn_field (m : Mapping) (name : String) (p : Predicate) :
    (∀ scope,
      (m.resolveIn scope (.field name p) = none ↔ m.Drops (scope ++ name) name p) ∧
        (¬ m.Drops (scope ++ name) name p →
          ∃ c leaf, m.resolveIn scope (.field name p) = some c ∧ c.leaves = [leaf])) ∧
      (∀ c : Condition, (m.resolve c).leaves = c.leaves.filterMap m.resolveLeaf) ∧
      (∀ chain, m.resolveLeaf (chain, .field name p) = none ↔
        m.Drops (Enclosure.path chain name) name p) ∧
      ∀ scope lower upper c, p = .range lower upper →
        m.relationCustom? (scope ++ name) = none → m.typeCustom? (scope ++ name) = none →
        m.resolveIn scope (.field name p) = some c →
        ∃ lower' upper', m.boundReader (scope ++ name) lower = some lower' ∧
          m.boundReader (scope ++ name) upper = some upper' ∧
          c.leaves = [(m.detour (scope ++ name),
            .field (m.columnFor (scope ++ name) name) (.range lower' upper'))] := by
  refine ⟨?_, m.leaves_resolve_eq, fun _ => resolveLeaf_eq_none_iff, ?_⟩
  · intro scope
    rw [resolveIn]
    refine ⟨resolveField_eq_none_iff, ?_⟩
    intro hkept
    rw [← resolveField_eq_none_iff] at hkept
    obtain ⟨c, hc⟩ := Option.ne_none_iff_exists'.1 hkept
    obtain ⟨leaf, hleaf⟩ := exists_leaf hc
    exact ⟨c, leaf, hc, hleaf⟩
  · rintro scope lower upper c rfl hr ht hc
    rw [resolveIn] at hc
    exact resolveField_range hr ht hc

/-- A range of ages, moved to a relation: `true` is read as a number like the bound beside it, and a
bound that is not a number takes the other one with it. -/
theorem resolveIn_range_of_ages :
    let m := ((Mapping.empty.withTypeHandler "author.age" (.ofType .number)).moveTo "author.age"
      "profile").withRelationHandler "author.age" (.ofCardinality .many)
    let twenty := Json.number (.integer ⟨20, by decide, by decide⟩)
    let p := Predicate.range (.bool true) twenty
    let broken := Predicate.range .null twenty
    m.Drops "author.age" "age" broken ∧ ¬ m.Drops "author.age" "age" p ∧
      ∃ c lower upper, m.resolveIn "author." (.field "age" p) = some c ∧
        Json.toNumber? (.bool true) = some lower ∧ Json.toNumber? twenty = some upper ∧
        c.leaves = [([.related "profile" (some .some)], .field "age" (.range lower upper))] := by
  intro m twenty p broken
  have hpath : "author." ++ "age" = "author.age" := by decide +kernel
  have hbroken : m.resolveIn "author." (.field "age" broken) = none := by decide +kernel
  have hp : (m.resolveIn "author." (.field "age" p)).isSome := by decide +kernel
  have hdetour : m.detour "author.age" = [.related "profile" (some .some)] := by decide +kernel
  have hcolumn : m.columnFor "author.age" "age" = "age" := by decide +kernel
  obtain ⟨hfield, -, -, hrange⟩ := resolveIn_field m "age" p
  have hkept : ¬ m.Drops ("author." ++ "age") "age" p := by
    intro hdrops
    rw [(hfield "author.").1.2 hdrops] at hp
    cases hp
  obtain ⟨c, -, hc, -⟩ := (hfield "author.").2 hkept
  obtain ⟨lower, upper, hlower, hupper, hleaves⟩ := hrange "author." _ _ c rfl rfl rfl hc
  rw [hpath] at hlower hupper hleaves hkept
  rw [hdetour, hcolumn] at hleaves
  refine ⟨?_, hkept, c, lower, upper, hc, hlower, hupper, hleaves⟩
  rw [← hpath]
  exact ((resolveIn_field m "age" broken).1 "author.").1.1 hbroken

end Mapping

end ListQuery
