import ListQuery.Condition.Leaves
import ListQuery.Resolution

/-!
# Entries of a mapping that matter

A mapping is looked up under dotted paths. Which ones, is up to the condition that it resolves: the
path of each of its fields, with the relations around the field in front. Everything else that the
mapping says is about other fields, even where it is said of a name that occurs in the condition, as
of the bare column of a field below a relation, or of the column that a field is renamed to.

Two mappings agree on a path (`Mapping.AgreesOn`) if they have the same entries there; what they say
of a relation is compared only where the path is moved to one. Mappings that agree on the paths of a
condition resolve it to the same condition, and mappings that agree on where the field of a sort order
is found sort by the same (`resolve_eq_of_agreesOn`).
-/

namespace ListQuery.Mapping

open Condition

/-! ### Mappings that agree -/

/-- Two mappings place a field alike: on the same relation, treated the same, in the same column. -/
structure PlacesLike (m n : Mapping) (path : String) : Prop where
  relation : m.relations.get? path = n.relations.get? path
  column : m.columns.get? path = n.columns.get? path
  /-- Without a relation there is nothing to treat. -/
  handler : (m.relations.get? path).isSome →
    m.relationHandlers.get? path = n.relationHandlers.get? path

/-- Two mappings have the same to say of a field. -/
structure AgreesOn (m n : Mapping) (path : String) : Prop extends m.PlacesLike n path where
  type : m.typeHandlers.get? path = n.typeHandlers.get? path

/-- Two mappings have the same to say of all fields among some leaves, below the relations that
`scope` names. -/
def AgreesBelow (m n : Mapping) (scope : String) (leaves : List (List Enclosure × Leaf)) : Prop :=
  ∀ chain name p, (chain, .field name p) ∈ leaves →
    m.AgreesOn n (scope ++ Enclosure.path chain name)

variable {m n : Mapping}

/-- A relation around the leaves moves into the scope. -/
theorem AgreesBelow.of_enclose {scope : String} {e : Enclosure}
    {leaves : List (List Enclosure × Leaf)} (h : m.AgreesBelow n scope (leaves.map (enclose e))) :
    m.AgreesBelow n (scope ++ e.scope) leaves := by
  intro chain name p hleaf
  have hagrees := h (e :: chain) name p (List.mem_map_of_mem hleaf)
  rwa [Enclosure.path_cons, ← String.append_assoc] at hagrees

theorem AgreesBelow.of_group {scope : String} {e : Enclosure} (he : e.scope = "")
    {leaves : List (List Enclosure × Leaf)} (h : m.AgreesBelow n scope (leaves.map (enclose e))) :
    m.AgreesBelow n scope leaves := by
  have hscope := h.of_enclose
  rwa [he, String.append_empty] at hscope

/-! ### What is looked up -/

theorem PlacesLike.columnFor {path : String} (h : m.PlacesLike n path) (default : String) :
    m.columnFor path default = n.columnFor path default := by
  rw [Mapping.columnFor, h.column, Mapping.columnFor]

/-- A field is looked up under its path and nowhere else. -/
theorem AgreesOn.resolveField {path : String} (h : m.AgreesOn n path) (name : String)
    (p : Predicate) : m.resolveField path name p = n.resolveField path name p := by
  rw [Mapping.resolveField, Mapping.resolveField, h.columnFor, h.type, ← h.relation]
  cases hr : m.relations.get? path with
  | none => rfl
  | some relation => rw [h.handler (by rw [hr]; rfl)]

/-- A sort key is looked up under itself, and its type does not count. -/
theorem PlacesLike.resolveOrder {name : String} (h : m.PlacesLike n name) (direction : Direction) :
    m.resolveOrder (.field name direction) = n.resolveOrder (.field name direction) := by
  rw [Mapping.resolveOrder, Mapping.resolveOrder, h.columnFor, ← h.relation]
  cases hr : m.relations.get? name with
  | none => rfl
  | some relation => rw [h.handler (by rw [hr]; rfl)]

mutual

theorem AgreesBelow.resolveIn : ∀ {scope : String} (c : Condition),
    m.AgreesBelow n scope c.leaves → m.resolveIn scope c = n.resolveIn scope c
  | _, .and entries, h | _, .or entries, h => by
    rw [leaves] at h
    rw [Mapping.resolveIn, Mapping.resolveIn, AgreesBelow.resolveEntries entries (h.of_group rfl)]
  | scope, .related relation quantifier body, h => by
    rw [leaves] at h
    have hbody : m.AgreesBelow n (scope ++ relation ++ ".") body.leaves := by
      rw [String.append_assoc]
      exact h.of_enclose
    rw [Mapping.resolveIn, Mapping.resolveIn, AgreesBelow.resolveIn body hbody]
  | scope, .field name p, h => by
    have hfield : m.AgreesOn n (scope ++ name) := h [] name p (by rw [leaves]; exact .head _)
    rw [Mapping.resolveIn, Mapping.resolveIn, hfield.resolveField]
  | _, .custom _, _ => rfl
  | _, .matchAll, _ => rfl

theorem AgreesBelow.resolveEntries : ∀ {scope : String} (entries : List Condition),
    m.AgreesBelow n scope (leavesOf entries) →
      m.resolveEntries scope entries = n.resolveEntries scope entries
  | _, [], _ => rfl
  | _, entry :: rest, h => by
    rw [leavesOf] at h
    have hentry := AgreesBelow.resolveIn entry fun chain name p hleaf =>
      h chain name p (List.mem_append_left _ hleaf)
    have hrest := AgreesBelow.resolveEntries rest fun chain name p hleaf =>
      h chain name p (List.mem_append_right _ hleaf)
    rw [Mapping.resolveEntries, Mapping.resolveEntries, hentry, hrest]

end

/-- **Only the paths that occur matter**: mappings that agree on the path of every field of a
condition resolve it alike, and mappings that place a field alike sort alike by it. -/
theorem resolve_eq_of_agreesOn :
    (∀ c : Condition, (∀ chain name p, (chain, .field name p) ∈ c.leaves →
      m.AgreesOn n (Enclosure.path chain name)) → m.resolve c = n.resolve c) ∧
    ∀ name direction, m.PlacesLike n name →
      m.resolveOrder (.field name direction) = n.resolveOrder (.field name direction) := by
  refine ⟨fun c h => ?_, fun name direction h => h.resolveOrder direction⟩
  have hbelow : m.AgreesBelow n "" c.leaves := by
    intro chain name p hleaf
    rw [String.empty_append]
    exact h chain name p hleaf
  rw [resolve, resolve, hbelow.resolveIn]

/-- Entries for the bare column of a field, for the column that it is renamed to, and for a relation
that no field is moved to: none of them is ever looked up. A type for a sort key is not either. -/
theorem resolve_of_stray_entries :
    let m := ((Mapping.empty.moveTo "author.name" "person").rename "author.name" "fullName")
      |>.withRelationHandler "author.name" (.ofCardinality .many)
    let n := (((m.withTypeHandler "name" (.ofType .number)).moveTo "fullName" "elsewhere")
      |>.withRelationHandler "title" ⟨.one, none, none, some fun _ _ => none⟩)
      |>.withTypeHandler "created" (.ofType .date)
    let c := Condition.and
      [ .onField "author.name" (.contains (.string "Ada")),
        .field "title" (.equals (.string "Ethics")) ]
    (∀ chain name p, (chain, .field name p) ∈ c.leaves →
      m.AgreesOn n (Enclosure.path chain name)) ∧
    m.PlacesLike n "created" ∧ m.resolve c = n.resolve c ∧
    m.resolveOrder (.field "created" .desc) = n.resolveOrder (.field "created" .desc) := by
  intro m n c
  have hname : m.AgreesOn n "author.name" :=
    { relation := by decide +kernel, column := by decide +kernel, handler := fun _ => rfl
      type := rfl }
  have htitle : m.AgreesOn n "title" :=
    { relation := by decide +kernel, column := by decide +kernel
      handler := fun h => absurd h (by decide +kernel), type := rfl }
  have hcreated : m.PlacesLike n "created" :=
    { relation := by decide +kernel, column := by decide +kernel
      handler := fun h => absurd h (by decide +kernel) }
  have hleaves : c.leaves =
      [ ([.and, .related "author" none], .field "name" (.contains (.string "Ada"))),
        ([.and], .field "title" (.equals (.string "Ethics"))) ] := by decide +kernel
  have hc : ∀ chain name p, (chain, .field name p) ∈ c.leaves →
      m.AgreesOn n (Enclosure.path chain name) := by
    intro chain name p hleaf
    rw [hleaves] at hleaf
    simp only [List.mem_cons, List.not_mem_nil, or_false, Prod.mk.injEq, Leaf.field.injEq] at hleaf
    rcases hleaf with ⟨rfl, rfl, -⟩ | ⟨rfl, rfl, -⟩
    · exact hname
    · exact htitle
  obtain ⟨hresolve, horder⟩ := resolve_eq_of_agreesOn (m := m) (n := n)
  exact ⟨hc, hcreated, hresolve c hc, horder "created" .desc hcreated⟩

end ListQuery.Mapping
