import ListQuery.Condition.Leaves
import ListQuery.Resolution

/-!
# The leaves of a resolved condition

Resolution walks a tree, gathers the relations above each field into a dotted path, drops what does
not fit and prunes what is left empty. Seen through `Condition.leaves` it is one `filterMap`
(`leaves_resolve`): each leaf is taken on its own, by its own path (`resolveLeaf`), and keeps the
groups and relations around it. What can become of a single leaf is said by `LeafOutcome`: a custom
leaf stays, and a field becomes what `resolveField` makes of it at its dotted path, in place or
below the one relation that the field is mapped to, or is dropped if `resolveField` drops it.

The list of leaves does not show empty groups. That none is left is `Condition.Trimmed`, which holds
of every resolved condition but `Condition.matchAll` (`resolve_trimmed`).
-/

namespace ListQuery

/-! ### Trimmed conditions -/

namespace Condition

mutual

/-- No group in the condition is empty and no part of it is `matchAll`, at any depth. -/
def Trimmed : Condition → Prop
  | .and entries | .or entries => entries ≠ [] ∧ AllTrimmed entries
  | .related _ _ body => body.Trimmed
  | .field _ _ | .custom _ => True
  | .matchAll => False

/-- Every condition of a list is trimmed. -/
def AllTrimmed : List Condition → Prop
  | [] => True
  | entry :: rest => entry.Trimmed ∧ AllTrimmed rest

end

theorem allTrimmed_iff {entries : List Condition} :
    AllTrimmed entries ↔ ∀ c ∈ entries, c.Trimmed := by
  induction entries with
  | nil => simp [AllTrimmed]
  | cons entry rest ih => rw [AllTrimmed, ih, List.forall_mem_cons]

/-- The leaf of a condition that has only one. -/
def onlyLeaf? (c : Condition) : Option (List Enclosure × Leaf) :=
  match c.leaves with
  | [leaf] => some leaf
  | _ => none

end Condition

namespace Mapping

open Condition

variable (m : Mapping)

/-! ### One field -/

/-- The relation that a field is moved below, if there is one. -/
def detour (path : String) : List Enclosure :=
  (m.relations.get? path).toList.map fun relation =>
    .related relation ((m.relationHandlers.get? path).bind RelationHandler.quantifier)

theorem resolveField_of_unmapped {path name : String} {p : Predicate}
    (h : m.relations.get? path = none) :
    m.resolveField path name p =
      (p.process (m.typeHandlers.get? path)).map (.field (m.columnFor path name)) := by
  simp only [resolveField, h]

theorem resolveField_of_custom {path name relation : String} {p : Predicate}
    {custom : Json → String → Option Json} (h : m.relations.get? path = some relation)
    (hc : (m.relationHandlers.get? path).bind RelationHandler.custom = some custom) :
    m.resolveField path name p = (custom p.rawValue (m.columnFor path name)).map .custom := by
  simp only [resolveField, h, hc]

theorem resolveField_of_mapped {path name relation : String} {p : Predicate}
    (h : m.relations.get? path = some relation)
    (hc : (m.relationHandlers.get? path).bind RelationHandler.custom = none) :
    m.resolveField path name p =
      (p.process (m.typeHandlers.get? path)).map fun q =>
        .related relation ((m.relationHandlers.get? path).bind RelationHandler.quantifier)
          (.field (m.columnFor path name) q) := by
  simp only [resolveField, h, hc]

/-- What a field can become: a test in its place, a test below the relation that the field is
mapped to, or, again of a mapped field, a condition that a custom function wrote. -/
theorem resolveField_cases {path name : String} {p : Predicate} {c : Condition}
    (h : m.resolveField path name p = some c) :
    (∃ q, c = .field (m.columnFor path name) q) ∨
      ∃ relation, m.relations.get? path = some relation ∧
        ((∃ value, c = .custom value) ∨
          ∃ quantifier q, c = .related relation quantifier (.field (m.columnFor path name) q)) := by
  cases hr : m.relations.get? path with
  | none =>
    rw [m.resolveField_of_unmapped hr, Option.map_eq_some_iff] at h
    obtain ⟨q, -, rfl⟩ := h
    exact Or.inl ⟨q, rfl⟩
  | some relation =>
    refine Or.inr ⟨relation, rfl, ?_⟩
    cases hc : (m.relationHandlers.get? path).bind RelationHandler.custom with
    | some custom =>
      rw [m.resolveField_of_custom hr hc, Option.map_eq_some_iff] at h
      obtain ⟨value, -, rfl⟩ := h
      exact Or.inl ⟨value, rfl⟩
    | none =>
      rw [m.resolveField_of_mapped hr hc, Option.map_eq_some_iff] at h
      obtain ⟨q, -, rfl⟩ := h
      exact Or.inr ⟨_, q, rfl⟩

/-! ### One leaf -/

/-- A leaf on its own after its mapping, below the relations that `scope` names. -/
def resolveLeafIn (scope : String) : List Enclosure × Leaf → Option (List Enclosure × Leaf)
  | (chain, .field name p) =>
    ((m.resolveField (scope ++ Enclosure.path chain name) name p).bind onlyLeaf?).map
      fun leaf => (chain ++ leaf.1, leaf.2)
  | (chain, .custom value) => some (chain, .custom value)

/-- A leaf of a whole condition after its mapping. -/
def resolveLeaf : List Enclosure × Leaf → Option (List Enclosure × Leaf) := m.resolveLeafIn ""

/-- What may become of a leaf; `path` is the dotted path of a field. -/
inductive LeafOutcome : List Enclosure × Leaf → Option (List Enclosure × Leaf) → Prop where
  /-- Custom conditions stay as they are. -/
  | kept {chain value} : LeafOutcome (chain, .custom value) (some (chain, .custom value))
  /-- A field that the mapping drops at its path. -/
  | dropped {chain name p} (h : m.resolveField (Enclosure.path chain name) name p = none) :
    LeafOutcome (chain, .field name p) none
  /-- A field that stays where it is. -/
  | inPlace {chain name p column q}
    (h : m.resolveField (Enclosure.path chain name) name p = some (.field column q)) :
    LeafOutcome (chain, .field name p) (some (chain, .field column q))
  /-- A field that a custom function replaces. -/
  | written {chain name p value}
    (h : m.resolveField (Enclosure.path chain name) name p = some (.custom value)) :
    LeafOutcome (chain, .field name p) (some (chain, .custom value))
  /-- A field that moves below the relation that it is mapped to. -/
  | moved {chain name p relation quantifier column q}
    (hr : m.relations.get? (Enclosure.path chain name) = some relation)
    (h : m.resolveField (Enclosure.path chain name) name p =
      some (.related relation quantifier (.field column q))) :
    LeafOutcome (chain, .field name p)
      (some (chain ++ [.related relation quantifier], .field column q))

theorem leafOutcome_resolveLeaf (leaf : List Enclosure × Leaf) :
    m.LeafOutcome leaf (m.resolveLeaf leaf) := by
  rcases leaf with ⟨chain, ⟨name, p⟩ | value⟩
  · rw [resolveLeaf, resolveLeafIn, String.empty_append]
    cases h : m.resolveField (Enclosure.path chain name) name p with
    | none => exact .dropped h
    | some c =>
      rcases m.resolveField_cases h with
        ⟨q, rfl⟩ | ⟨relation, hr, ⟨value, rfl⟩ | ⟨quantifier, q, rfl⟩⟩
      · simpa [onlyLeaf?, leaves] using LeafOutcome.inPlace h
      · simpa [onlyLeaf?, leaves] using LeafOutcome.written h
      · simpa [onlyLeaf?, leaves, enclose] using LeafOutcome.moved hr h
  · exact .kept

/-- A relation around a leaf moves into the scope, a group around it changes nothing. -/
theorem resolveLeafIn_enclose (scope : String) (e : Enclosure) (leaf : List Enclosure × Leaf) :
    m.resolveLeafIn scope (enclose e leaf) =
      (m.resolveLeafIn (scope ++ e.scope) leaf).map (enclose e) := by
  rcases leaf with ⟨chain, ⟨name, p⟩ | value⟩
  · simp [resolveLeafIn, enclose, String.append_assoc, Function.comp_def]
  · rfl

theorem filterMap_resolveLeafIn_enclose (scope : String) (e : Enclosure)
    (leaves : List (List Enclosure × Leaf)) :
    (leaves.map (enclose e)).filterMap (m.resolveLeafIn scope) =
      (leaves.filterMap (m.resolveLeafIn (scope ++ e.scope))).map (enclose e) := by
  rw [List.filterMap_map, List.map_filterMap]
  exact congrFun (congrArg _ (funext (m.resolveLeafIn_enclose scope e))) leaves

/-! ### All leaves -/

/-- An empty group has no leaf, and so a group that is dropped for being empty loses none. -/
theorem leaves_group (make : List Condition → Condition) (e : Enclosure)
    (h : ∀ entries, (make entries).leaves = (leavesOf entries).map (enclose e))
    (entries : List Condition) :
    ((group make entries).getD .matchAll).leaves = (leavesOf entries).map (enclose e) := by
  cases entries with
  | nil => rfl
  | cons entry rest => exact h (entry :: rest)

mutual

theorem leaves_resolveIn : ∀ (c : Condition) (scope : String),
    ((m.resolveIn scope c).getD .matchAll).leaves = c.leaves.filterMap (m.resolveLeafIn scope)
  | .and entries, scope => by
    rw [resolveIn, leaves_group .and .and fun _ => by rw [leaves],
      leavesOf_resolveEntries entries scope, leaves, filterMap_resolveLeafIn_enclose,
      Enclosure.scope, String.append_empty]
  | .or entries, scope => by
    rw [resolveIn, leaves_group .or .or fun _ => by rw [leaves],
      leavesOf_resolveEntries entries scope, leaves, filterMap_resolveLeafIn_enclose,
      Enclosure.scope, String.append_empty]
  | .related relation quantifier body, scope => by
    rw [leaves, filterMap_resolveLeafIn_enclose, Enclosure.scope, ← String.append_assoc,
      ← leaves_resolveIn body, resolveIn]
    cases m.resolveIn (scope ++ relation ++ ".") body <;> rfl
  | .field name p, scope => by
    rw [resolveIn, leaves]
    cases h : m.resolveField (scope ++ name) name p with
    | none => simp [resolveLeafIn, h, leaves]
    | some c =>
      rcases m.resolveField_cases h with
        ⟨q, rfl⟩ | ⟨relation, -, ⟨value, rfl⟩ | ⟨quantifier, q, rfl⟩⟩ <;>
        simp [resolveLeafIn, h, leaves, onlyLeaf?, enclose]
  | .custom _, _ => rfl
  | .matchAll, _ => rfl

theorem leavesOf_resolveEntries : ∀ (entries : List Condition) (scope : String),
    leavesOf (m.resolveEntries scope entries) =
      (leavesOf entries).filterMap (m.resolveLeafIn scope)
  | [], _ => rfl
  | entry :: rest, scope => by
    rw [leavesOf, List.filterMap_append, ← leaves_resolveIn entry scope,
      ← leavesOf_resolveEntries rest scope, resolveEntries]
    cases m.resolveIn scope entry <;> rfl

end

/-! ### What is left -/

theorem group_eq_some_iff {make : List Condition → Condition} {entries : List Condition}
    {c : Condition} : group make entries = some c ↔ entries ≠ [] ∧ make entries = c := by
  cases entries <;> simp [group]

theorem resolveField_trimmed {path name : String} {p : Predicate} {c : Condition}
    (h : m.resolveField path name p = some c) : c.Trimmed := by
  rcases m.resolveField_cases h with ⟨q, rfl⟩ | ⟨relation, -, ⟨value, rfl⟩ | ⟨quantifier, q, rfl⟩⟩
    <;> simp [Trimmed]

mutual

theorem resolveIn_trimmed : ∀ (c : Condition) {scope : String} {c' : Condition},
    m.resolveIn scope c = some c' → c'.Trimmed
  | .and entries, scope, _, h | .or entries, scope, _, h => by
    rw [resolveIn, group_eq_some_iff] at h
    obtain ⟨hne, rfl⟩ := h
    exact ⟨hne, resolveEntries_trimmed entries scope⟩
  | .related relation quantifier body, _, _, h => by
    rw [resolveIn, Option.map_eq_some_iff] at h
    obtain ⟨body', hb, rfl⟩ := h
    rw [Trimmed]
    exact resolveIn_trimmed body hb
  | .field _ _, _, _, h => m.resolveField_trimmed (by rwa [resolveIn] at h)
  | .custom _, _, _, h => by
    rw [resolveIn, Option.some.injEq] at h
    subst h
    trivial
  | .matchAll, _, _, h => by simp [resolveIn] at h

theorem resolveEntries_trimmed : ∀ (entries : List Condition) (scope : String),
    AllTrimmed (m.resolveEntries scope entries)
  | [], _ => trivial
  | entry :: rest, scope => by
    rw [resolveEntries]
    cases h : m.resolveIn scope entry with
    | none => exact resolveEntries_trimmed rest scope
    | some c => exact ⟨resolveIn_trimmed entry h, resolveEntries_trimmed rest scope⟩

end

/-- A resolved condition is `matchAll` itself or holds no trace of what was dropped. -/
theorem resolve_trimmed (c : Condition) : m.resolve c = .matchAll ∨ (m.resolve c).Trimmed := by
  rw [resolve]
  cases h : m.resolveIn "" c with
  | none => exact Or.inl rfl
  | some c' => exact Or.inr (m.resolveIn_trimmed c h)

/-- The leaves of a resolved condition are those of the condition, each resolved on its own. -/
theorem leaves_resolve_eq (c : Condition) :
    (m.resolve c).leaves = c.leaves.filterMap m.resolveLeaf :=
  m.leaves_resolveIn c ""

/-- **Structure of resolution**: leaf by leaf a condition becomes what its mapping makes of each
path, and of its groups those stay that still have an entry. -/
theorem leaves_resolve (c : Condition) :
    (m.resolve c).leaves = c.leaves.filterMap m.resolveLeaf ∧
      (∀ leaf, m.LeafOutcome leaf (m.resolveLeaf leaf)) ∧
      (m.resolve c = .matchAll ∨ (m.resolve c).Trimmed) :=
  ⟨m.leaves_resolve_eq c, m.leafOutcome_resolveLeaf, m.resolve_trimmed c⟩

end Mapping

end ListQuery
