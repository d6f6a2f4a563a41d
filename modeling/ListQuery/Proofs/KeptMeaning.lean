import ListQuery.Proofs.CompiledEntries
import ListQuery.Proofs.DroppedFields
import Mathlib.Data.List.Forall2

/-!
# Mappings that keep every value

A mapping without custom functions and without number or date types cannot drop a value
(`Mapping.KeepsValues`). Its resolution should then not change which rows a condition selects, as
far as the groups decide: read a condition over truth values for its leaves, by their position from
left to right (`Condition.valueFrom`), and ask whether the condition and the resolved condition
always agree.

* Every leaf stays, at its position, as the test of one field.
* A condition without empty groups keeps its value (`resolveIn_sameTruth`), by induction on the
  tree: each part becomes a part of as many leaves and the same value at every start.
* The condition of a request has an empty group exactly if a filter asks for one of no values. That
  group holds of no row, but it is pruned like a group that has lost its entries, and the request
  without it can hold. So the two readings of a request agree for all truth values if and only if
  no filter value is the empty array (`resolve_ofRequest_keeps`).
-/

namespace ListQuery

/-! ### Truth by position -/

namespace Condition

mutual

/-- The value of a condition whose leaves, from left to right, have the truth values from `start`
on. An empty conjunction is true, an empty disjunction false. -/
def valueFrom (truth : Nat → Bool) (start : Nat) : Condition → Bool
  | .and entries => allFrom truth start entries
  | .or entries => anyFrom truth start entries
  | .related _ _ body => body.valueFrom truth start
  | .field _ _ | .custom _ => truth start
  | .matchAll => true

/-- Whether all of some conditions side by side are true. -/
def allFrom (truth : Nat → Bool) (start : Nat) : List Condition → Bool
  | [] => true
  | entry :: rest =>
    entry.valueFrom truth start && allFrom truth (start + entry.leaves.length) rest

/-- Whether one of some conditions side by side is true. -/
def anyFrom (truth : Nat → Bool) (start : Nat) : List Condition → Bool
  | [] => false
  | entry :: rest =>
    entry.valueFrom truth start || anyFrom truth (start + entry.leaves.length) rest

end

/-- As many leaves, and the same value over all truth values for them. -/
structure SameTruth (a b : Condition) : Prop where
  count : a.leaves.length = b.leaves.length
  value : ∀ truth start, a.valueFrom truth start = b.valueFrom truth start

theorem SameTruth.related {a b : Condition} (h : SameTruth a b) (relation : String)
    (quantifier : Option Quantifier) :
    SameTruth (.related relation quantifier a) (.related relation quantifier b) where
  count := by simpa [leaves] using h.count
  value truth start := by simpa only [valueFrom] using h.value truth start

section

variable {as bs : List Condition} (h : List.Forall₂ SameTruth as bs)

include h

theorem leavesOf_sameTruth : (leavesOf as).length = (leavesOf bs).length := by
  induction h with
  | nil => rfl
  | cons hab _ ih => simp only [leavesOf, List.length_append, hab.count, ih]

theorem SameTruth.and : SameTruth (.and as) (.and bs) where
  count := by simpa [leaves] using leavesOf_sameTruth h
  value truth start := by
    simp only [valueFrom]
    induction h generalizing start with
    | nil => rfl
    | cons hab _ ih => simp only [allFrom, hab.value, hab.count, ih]

theorem SameTruth.or : SameTruth (.or as) (.or bs) where
  count := by simpa [leaves] using leavesOf_sameTruth h
  value truth start := by
    simp only [valueFrom]
    induction h generalizing start with
    | nil => rfl
    | cons hab _ ih => simp only [anyFrom, hab.value, hab.count, ih]

end

/-- A conjunction with the empty disjunction among its entries is false. -/
theorem allFrom_eq_false {entries : List Condition} (h : .or [] ∈ entries) (truth : Nat → Bool)
    (start : Nat) : allFrom truth start entries = false := by
  induction entries generalizing start with
  | nil => simp at h
  | cons entry rest ih =>
    rw [allFrom]
    rcases List.mem_cons.1 h with rfl | h
    · simp [valueFrom, anyFrom]
    · rw [ih h, Bool.and_false]

mutual

/-- Where every leaf holds, so does every condition without empty groups. -/
theorem valueFrom_true : ∀ (c : Condition) (start : Nat), c.Trimmed →
    c.valueFrom (fun _ => true) start = true
  | .and entries, start, h => by
    rw [valueFrom]
    exact (allFrom_true entries start h.2).1
  | .or entries, start, h => by
    rw [valueFrom]
    exact (allFrom_true entries start h.2).2 h.1
  | .related _ _ body, start, h => by
    rw [valueFrom]
    exact valueFrom_true body start (by rwa [Trimmed] at h)
  | .field _ _, _, _ | .custom _, _, _ => rfl
  | .matchAll, _, h => h.elim

theorem allFrom_true : ∀ (entries : List Condition) (start : Nat), AllTrimmed entries →
    allFrom (fun _ => true) start entries = true ∧
      (entries ≠ [] → anyFrom (fun _ => true) start entries = true)
  | [], _, _ => ⟨rfl, fun h => absurd rfl h⟩
  | entry :: rest, start, h => by
    have he := valueFrom_true entry start h.1
    have hr := allFrom_true rest (start + entry.leaves.length) h.2
    exact ⟨by rw [allFrom, he, hr.1]; rfl, fun _ => by rw [anyFrom, he]; rfl⟩

end

end Condition

/-! ### Keeping values -/

/-- No custom function, and no type whose values can fail to be read. -/
structure Mapping.KeepsValues (m : Mapping) : Prop where
  types : ∀ key h, (key, h) ∈ m.typeHandlers.entries →
    h.custom = none ∧ h.type ≠ .number ∧ h.type ≠ .date
  relations : ∀ key h, (key, h) ∈ m.relationHandlers.entries → h.custom = none

namespace Mapping

open Condition

variable {m : Mapping}

theorem KeepsValues.process_isSome (hm : m.KeepsValues) (key : String) (p : Predicate) :
    (p.process (m.typeHandlers.get? key)).isSome := by
  cases hh : m.typeHandlers.get? key with
  | none => cases p <;> rfl
  | some h =>
    obtain ⟨hc, hn, hd⟩ := hm.types key h (Entries.mem_of_get? hh)
    rw [Option.isSome_iff_ne_none, Ne, Predicate.process_eq_none_iff hc]
    intro hrejected
    rcases hrejected.type_eq with ht | ht
    · exact hn ht
    · exact hd ht

theorem KeepsValues.custom_eq_none (hm : m.KeepsValues) (key : String) :
    (m.relationHandlers.get? key).bind RelationHandler.custom = none := by
  cases hh : m.relationHandlers.get? key with
  | none => rfl
  | some h => exact hm.relations key h (Entries.mem_of_get? hh)

/-- A field stays a test of one column, in its place or below the relation that it is moved to. -/
theorem KeepsValues.resolveField (hm : m.KeepsValues) (path name : String) (p : Predicate) :
    ∃ q, (m.detour path = [] ∧
        m.resolveField path name p = some (.field (m.columnFor path name) q)) ∨
      ∃ relation quantifier, m.detour path = [.related relation quantifier] ∧
        m.resolveField path name p =
          some (.related relation quantifier (.field (m.columnFor path name) q)) := by
  obtain ⟨q, hq⟩ := Option.isSome_iff_exists.1 (hm.process_isSome path p)
  refine ⟨q, ?_⟩
  cases hr : m.relations.get? path with
  | none =>
    refine .inl ⟨by rw [detour, hr]; rfl, ?_⟩
    rw [m.resolveField_of_unmapped hr, hq]
    rfl
  | some relation =>
    refine .inr ⟨relation, _, by rw [detour, hr]; rfl, ?_⟩
    rw [m.resolveField_of_mapped hr (hm.custom_eq_none path), hq]
    rfl

/-- As a leaf it keeps what is around it, with the relation that it is moved to inside of that. -/
theorem KeepsValues.resolveLeaf_field (hm : m.KeepsValues) (chain : List Enclosure)
    (name : String) (p : Predicate) :
    ∃ q, m.resolveLeaf (chain, .field name p) =
      some (chain ++ m.detour (Enclosure.path chain name),
        .field (m.columnFor (Enclosure.path chain name) name) q) := by
  obtain ⟨q, ⟨hd, hq⟩ | ⟨relation, quantifier, hd, hq⟩⟩ :=
    hm.resolveField (Enclosure.path chain name) name p
  · exact ⟨q, by simp [resolveLeaf, resolveLeafIn, hq, hd, onlyLeaf?, leaves]⟩
  · exact ⟨q, by simp [resolveLeaf, resolveLeafIn, hq, hd, onlyLeaf?, leaves, enclose]⟩

mutual

/-- A condition without empty groups is not dropped and keeps its value. -/
theorem resolveIn_sameTruth (hm : m.KeepsValues) : ∀ (c : Condition) (scope : String),
    c.Trimmed → ∃ c', m.resolveIn scope c = some c' ∧ SameTruth c' c
  | .and entries, scope, h => by
    have hs := resolveEntries_sameTruth hm entries scope h.2
    have hne : m.resolveEntries scope entries ≠ [] := fun he => h.1 (by simpa [he] using hs)
    exact ⟨_, by rw [resolveIn, group_eq_some_iff]; exact ⟨hne, rfl⟩, .and hs⟩
  | .or entries, scope, h => by
    have hs := resolveEntries_sameTruth hm entries scope h.2
    have hne : m.resolveEntries scope entries ≠ [] := fun he => h.1 (by simpa [he] using hs)
    exact ⟨_, by rw [resolveIn, group_eq_some_iff]; exact ⟨hne, rfl⟩, .or hs⟩
  | .related relation quantifier body, scope, h => by
    obtain ⟨body', hb, hs⟩ :=
      resolveIn_sameTruth hm body (scope ++ relation ++ ".") (by rwa [Trimmed] at h)
    exact ⟨_, by rw [resolveIn, hb]; rfl, hs.related relation quantifier⟩
  | .field name p, scope, _ => by
    rw [resolveIn]
    obtain ⟨q, ⟨-, h⟩ | ⟨relation, quantifier, -, h⟩⟩ :=
      hm.resolveField (scope ++ name) name p <;>
      exact ⟨_, h, rfl, fun _ _ => rfl⟩
  | .custom value, _, _ => ⟨.custom value, rfl, rfl, fun _ _ => rfl⟩
  | .matchAll, _, h => h.elim

theorem resolveEntries_sameTruth (hm : m.KeepsValues) :
    ∀ (entries : List Condition) (scope : String), AllTrimmed entries →
      List.Forall₂ SameTruth (m.resolveEntries scope entries) entries
  | [], _, _ => .nil
  | entry :: rest, scope, h => by
    obtain ⟨c', hc, hs⟩ := resolveIn_sameTruth hm entry scope h.1
    rw [resolveEntries, hc]
    exact .cons hs (resolveEntries_sameTruth hm rest scope h.2)

end

end Mapping

/-! ### Compiled requests -/

/-- A test of a field, rather than a condition in the store's own form. -/
def Leaf.IsField : Leaf → Prop
  | .field _ _ => True
  | .custom _ => False

namespace Condition

theorem onField_trimmed (key : String) (p : Predicate) : (onField key p).Trimmed := by
  rw [onField]
  cases FieldPath.ofString key <;> simp [onPath, Trimmed]

theorem onField_ne_or (key : String) (p : Predicate) (entries : List Condition) :
    onField key p ≠ .or entries := by
  rw [onField]
  cases FieldPath.ofString key <;> simp [onPath]

theorem trimmed_of_entry {r : Request} {c : Condition} (h : r.Entry c) (hne : c ≠ .or []) :
    c.Trimmed := by
  cases h with
  | test => exact onField_trimmed _ _
  | options =>
    refine ⟨fun he => hne (congrArg _ he), allTrimmed_iff.2 fun c hc => ?_⟩
    obtain ⟨test, -, rfl⟩ := List.mem_map.1 hc
    exact onField_trimmed _ _

theorem or_nil_notMem_ofSearches {searches : Dict Json} :
    .or [] ∉ (ofSearches? searches).toList := by
  unfold ofSearches?
  generalize searches.present = members
  match members with
  | [] => simp
  | [member] => simpa [ofSearch] using (onField_ne_or member.1 (.contains member.2) []).symm
  | member :: second :: rest => simp

/-- The empty group among the entries of a request is a filter without values. -/
theorem or_nil_mem_iff {r : Request} :
    .or [] ∈ (ofRequest r).andEntries ↔ ∃ key, (key, .array []) ∈ r.filters.entries := by
  simp only [ofRequest, andEntries, List.mem_append]
  constructor
  · rintro ((h | h) | h)
    · obtain ⟨⟨key, value⟩, hmem, he⟩ := List.mem_map.1 h
      refine ⟨key, ?_⟩
      cases value with
      | array options =>
        obtain rfl : options = [] := by simpa [ofFilter] using he
        exact (Dict.mem_present.1 hmem).1
      | null | bool | number | string | object => exact absurd he (onField_ne_or _ _ _)
    · exact absurd h or_nil_notMem_ofSearches
    · obtain ⟨range, -, he⟩ := List.mem_map.1 h
      exact absurd he (onField_ne_or _ _ _)
  · rintro ⟨key, h⟩
    exact .inl (.inl (List.mem_map.2 ⟨(key, .array []), Dict.mem_present.2 ⟨h, by simp⟩, rfl⟩))

/-! ### The leaves of a compiled request -/

/-- Every leaf tests a field. -/
def FieldsOnly (c : Condition) : Prop := ∀ leaf ∈ c.leaves, leaf.2.IsField

theorem isField_of_mem_map_enclose {entries : List Condition} (h : ∀ c ∈ entries, c.FieldsOnly)
    {e : Enclosure} : ∀ leaf ∈ (leavesOf entries).map (enclose e), leaf.2.IsField := by
  rw [leavesOf_eq_flatMap, List.forall_mem_map]
  intro leaf hleaf
  obtain ⟨c, hc, hleaf⟩ := List.mem_flatMap.1 hleaf
  exact h c hc leaf hleaf

theorem onField_fieldsOnly (key : String) (p : Predicate) : (onField key p).FieldsOnly := by
  intro leaf h
  rw [leaves_onField, List.mem_singleton] at h
  rw [h]
  trivial

theorem fieldsOnly_of_entry {r : Request} {c : Condition} (h : r.Entry c) : c.FieldsOnly := by
  cases h with
  | test => exact onField_fieldsOnly _ _
  | options =>
    rw [FieldsOnly, leaves]
    refine isField_of_mem_map_enclose fun c hc => ?_
    obtain ⟨test, -, rfl⟩ := List.mem_map.1 hc
    exact onField_fieldsOnly test.1 test.2

theorem ofRequest_fieldsOnly (r : Request) : (ofRequest r).FieldsOnly := by
  rw [FieldsOnly, ofRequest, leaves]
  exact isField_of_mem_map_enclose fun c hc => fieldsOnly_of_entry (Request.entry_of_mem hc)

end Condition

namespace Mapping

open Condition

variable {m : Mapping}

/-- The leaf `new` is what the mapping makes of the leaf `old`, and both test a field. -/
def SameField (m : Mapping) (old new : List Enclosure × Leaf) : Prop :=
  m.resolveLeaf old = some new ∧ old.2.IsField ∧ new.2.IsField

theorem KeepsValues.sameField (hm : m.KeepsValues) {old : List Enclosure × Leaf}
    (h : old.2.IsField) : ∃ new, m.resolveLeaf old = some new ∧ m.SameField old new := by
  rcases old with ⟨chain, ⟨name, p⟩ | value⟩
  · obtain ⟨q, hl⟩ := hm.resolveLeaf_field chain name p
    exact ⟨_, hl, hl, trivial, trivial⟩
  · exact h.elim

theorem KeepsValues.forall₂_sameField (hm : m.KeepsValues) {leaves : List (List Enclosure × Leaf)}
    (h : ∀ leaf ∈ leaves, leaf.2.IsField) :
    List.Forall₂ m.SameField leaves (leaves.filterMap m.resolveLeaf) := by
  induction leaves with
  | nil => exact .nil
  | cons leaf rest ih =>
    obtain ⟨new, hnew, hsame⟩ := hm.sameField (h leaf List.mem_cons_self)
    rw [List.filterMap_cons_some hnew]
    exact .cons hsame (ih fun l hl => h l (List.mem_cons_of_mem _ hl))

/-! ### The resolved condition of a request -/

/-- Without an empty group a compiled request keeps its value. -/
theorem KeepsValues.value_eq (hm : m.KeepsValues) {r : Request}
    (h : .or [] ∉ (Condition.ofRequest r).andEntries) (truth : Nat → Bool) :
    (m.resolve (.ofRequest r)).valueFrom truth 0 = (Condition.ofRequest r).valueFrom truth 0 := by
  have hand : Condition.ofRequest r = .and (Condition.ofRequest r).andEntries := rfl
  have hentries : AllTrimmed (Condition.ofRequest r).andEntries :=
    allTrimmed_iff.2 fun c hc => trimmed_of_entry (Request.entry_of_mem hc) fun he => h (he ▸ hc)
  rw [hand]
  generalize (Condition.ofRequest r).andEntries = entries at hentries
  by_cases hne : entries = []
  · subst hne
    rfl
  · obtain ⟨c', hc, hs⟩ := resolveIn_sameTruth hm (.and entries) "" ⟨hne, hentries⟩
    rw [resolve, hc]
    exact hs.value truth 0

/-- With an empty group a compiled request is false, but resolved it is true where every leaf is. -/
theorem value_ne_of_or_nil_mem {r : Request} (h : .or [] ∈ (Condition.ofRequest r).andEntries) :
    (m.resolve (.ofRequest r)).valueFrom (fun _ => true) 0 ≠
      (Condition.ofRequest r).valueFrom (fun _ => true) 0 := by
  have hold : (Condition.ofRequest r).valueFrom (fun _ => true) 0 = false := by
    rw [Condition.ofRequest, valueFrom]
    exact allFrom_eq_false h _ _
  have hnew : (m.resolve (.ofRequest r)).valueFrom (fun _ => true) 0 = true := by
    rcases m.resolve_trimmed (.ofRequest r) with he | ht
    · rw [he]
      rfl
    · exact valueFrom_true _ 0 ht
  rw [hold, hnew]
  decide

/-- **What a mapping that keeps values keeps**: each leaf of a request is still there, at its place
in the order, as the test of a field; and the condition selects the same, whatever the truth of the
leaves, if and only if no filter asks for one of no values. -/
theorem resolve_ofRequest_keeps (hm : m.KeepsValues) (r : Request) :
    List.Forall₂ m.SameField (Condition.ofRequest r).leaves (m.resolve (.ofRequest r)).leaves ∧
      ((∀ truth, (m.resolve (.ofRequest r)).valueFrom truth 0 =
          (Condition.ofRequest r).valueFrom truth 0) ↔
        ∀ key, (key, .array []) ∉ r.filters.entries) := by
  refine ⟨?_, fun h key hkey => ?_, fun h => hm.value_eq fun hmem => ?_⟩
  · rw [m.leaves_resolve_eq]
    exact hm.forall₂_sameField (ofRequest_fieldsOnly r)
  · exact value_ne_of_or_nil_mem (or_nil_mem_iff.2 ⟨key, hkey⟩) (h _)
  · obtain ⟨key, hkey⟩ := or_nil_mem_iff.1 hmem
    exact h key hkey

/-- Two options, moved to a relation and read as Booleans, are still two and select the same. -/
theorem keeps_options_of_status :
    let m := (Mapping.empty.moveTo "status" "state").withTypeHandler "status" (.ofType .boolean)
    let r := Request.empty.apply (.filter "status" (.array [.string "yes", .null]))
    m.KeepsValues ∧ (m.resolve (.ofRequest r)).leaves.length = 2 ∧
      ∀ truth, (m.resolve (.ofRequest r)).valueFrom truth 0 =
        (Condition.ofRequest r).valueFrom truth 0 := by
  intro m r
  have hm : m.KeepsValues :=
    { types := by simp [m, withTypeHandler, moveTo, Mapping.empty, Dict.insert, Dict.empty,
        Entries.insert, TypeHandler.ofType]
      relations := by simp [m, withTypeHandler, moveTo, Mapping.empty, Dict.empty] }
  have hr : ∀ key, (key, Json.array []) ∉ r.filters.entries := by
    simp [r, Request.apply, Request.empty, Dict.insert, Dict.empty, Entries.insert]
  obtain ⟨hleaves, hvalue⟩ := resolve_ofRequest_keeps hm r
  exact ⟨hm, hleaves.length_eq.symm, hvalue.2 hr⟩

/-- A filter by no values selects nothing, but the empty mapping makes of it what selects all. -/
theorem empty_widens_filter_of_no_values :
    let r := Request.empty.apply (.filter "status" (.array []))
    Mapping.empty.KeepsValues ∧
      (∀ truth, (Condition.ofRequest r).valueFrom truth 0 = false) ∧
      Mapping.empty.resolve (.ofRequest r) = .matchAll ∧
      ∀ truth, (Mapping.empty.resolve (.ofRequest r)).valueFrom truth 0 = true := by
  intro r
  have hm : Mapping.empty.KeepsValues :=
    { types := by simp [Mapping.empty, Dict.empty]
      relations := by simp [Mapping.empty, Dict.empty] }
  exact ⟨hm, fun _ => rfl, rfl, fun _ => rfl⟩

end Mapping

end ListQuery
