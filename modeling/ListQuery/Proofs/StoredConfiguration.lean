import ListQuery.Proofs.DecodedText
import ListQuery.Proofs.RelevantEntries
import ListQuery.Proofs.StoredRequest
import ListQuery.Validation

/-!
# Configurations that are stored and read back

The text of a specification leaves out what is unset. The text of a mapping leaves out the custom
functions of its handlers, and lists its dictionaries in whatever order. This module says that
nothing else is lost (`ofText_saved`): a specification is read back as it was, so that an unset list
stays apart from an empty one, and a mapping without functions is read back with the same entries, so
that it resolves every condition and every sort order to the same.

An object is written part by part (`optionalMembers`), and read back in the same order. For each type
there are three facts: its decoder agrees on values and texts, the value that is written is plain,
and that value is decoded to what was written. The first two bring the third from values to texts.
-/

namespace ListQuery

open Decoder Json.Reader

variable {α σ : Type}

/-! ### Objects that are written part by part -/

namespace Request

/-- Members that are written in order, each if it is there. -/
def optionalMembers (parts : List (String × Option Json)) : List (String × Json) :=
  parts.flatMap fun p => optionalMember p.1 p.2

theorem keys_optionalMembers_sublist (parts : List (String × Option Json)) :
    (Entries.keys (optionalMembers parts)).Sublist (parts.map Prod.fst) := by
  induction parts with
  | nil => exact .slnil
  | cons p parts ih =>
    rw [optionalMembers, List.flatMap_cons, Entries.keys, List.map_append]
    exact (keys_optionalMember_sublist p.1 p.2).append ih

/-- The object of such members is plain if every part is. -/
theorem plain_optionalMembers {depth : Nat} {parts : List (String × Option Json)}
    (hkeys : (parts.map Prod.fst).Nodup) (h : ∀ p ∈ parts, ∀ v ∈ p.2, v.Plain depth) :
    (Json.object (optionalMembers parts)).Plain (depth + 1) := by
  refine .object (hkeys.sublist (keys_optionalMembers_sublist parts)) fun m hm => ?_
  obtain ⟨p, hp, hm⟩ := List.mem_flatMap.1 hm
  obtain ⟨v, hv, rfl⟩ := List.mem_map.1 hm
  exact h p hp v (Option.mem_toList.1 hv)

section Reread

variable {ms : List (Member σ)} {parts : List (String × Option Json)} {start r s : σ}

/-- A record without required members is read back part by part. -/
theorem record_ofJson_optionalMembers (name : String) (hms : ∀ m ∈ ms, m.presence ≠ .required)
    (hkeys : (parts.map Prod.fst).Nodup)
    (h : (optionalMembers parts).foldlM (setMember ms) start = .ok r) :
    (record name ms start).ofJson (.object (optionalMembers parts)) = .ok r := by
  rw [record_ofJson_object name hms start (hkeys.sublist (keys_optionalMembers_sublist parts)), h]

/-- The first part is read into a record that lacks it, and the others behind it. -/
theorem foldlM_optionalMembers_cons {d : Decoder α} {set : α → σ → σ} {default a : α} {key : String}
    {value : Option Json} (hfind : findMember ms key = some (.optional key d set))
    (hvalue : Fills d default value a) (hs : set default s = s)
    (h : (optionalMembers parts).foldlM (setMember ms) (set a s) = .ok r) :
    (optionalMembers ((key, value) :: parts)).foldlM (setMember ms) s = .ok r := by
  rw [optionalMembers, List.flatMap_cons, List.foldlM_append]
  exact Decoded.bind_eq_ok_iff.2 ⟨_, foldlM_optionalMember key hfind hvalue hs, h⟩

end Reread

end Request

open Request

/-! ### Parts -/

namespace Decoder

/-- A name is decoded to what bears it, if different things bear different names. -/
theorem choice_ofJson_name {all : List α} {name : α → String} (hall : (all.map name).Nodup) {a : α}
    (ha : a ∈ all) : (choice (all.map fun a => (name a, a))).ofJson (.string (name a)) = .ok a := by
  have hget : Entries.get? (name a) (all.map fun a => (name a, a)) = some a := by
    refine Entries.get?_of_mem ?_ (List.mem_map.2 ⟨a, ha, rfl⟩)
    rwa [Entries.keys, List.map_map]
  show chosen _ (name a) = .ok a
  rw [chosen, hget]

section Written

variable {d : Decoder α} {write : α → Json}

theorem list_ofJson_map {as : List α} (h : ∀ a ∈ as, d.ofJson (write a) = .ok a) :
    d.list.ofJson (.array (as.map write)) = .ok as := by
  show (as.map write).mapM d.ofJson = .ok as
  induction as with
  | nil => rfl
  | cons a as ih =>
    rw [List.forall_mem_cons] at h
    rw [List.map_cons, List.mapM_cons, h.1, ih h.2]
    rfl

theorem dictionary_ofJson_map {dict : Dict α}
    (h : ∀ e ∈ dict.entries, d.ofJson (write e.2) = .ok e.2) :
    d.dictionary.ofJson (.object (dict.entries.map fun e => (e.1, write e.2))) = .ok dict := by
  have hentries {entries : List (String × α)} (h : ∀ e ∈ entries, d.ofJson (write e.2) = .ok e.2) :
      d.entriesOfJson (entries.map fun e => (e.1, write e.2)) = .ok entries := by
    induction entries with
    | nil => rfl
    | cons e entries ih =>
      rw [List.forall_mem_cons] at h
      rw [List.map_cons, entriesOfJson, h.1, ih h.2]
      rfl
  show (d.entriesOfJson _).map Dict.ofList = .ok dict
  rw [hentries h, Except.map, dict.ofList_entries]

/-- What may be missing is written if it is there. -/
theorem fills_optional (hnull : ∀ a, write a ≠ .null) (h : ∀ a, d.ofJson (write a) = .ok a)
    (b : Option α) : Fills d.optional none (b.map write) b := by
  cases b with
  | none => exact .absent
  | some a =>
    refine .given ?_
    rw [ofJson_optional d (hnull a), h a]
    rfl

theorem plain_dictionary {depth : Nat} {dict : Dict α}
    (h : ∀ e ∈ dict.entries, (write e.2).Plain depth) :
    (Json.object (dict.entries.map fun e => (e.1, write e.2))).Plain (depth + 1) := by
  refine .object ?_ (List.forall_mem_map.2 h)
  rw [Entries.keys_map]
  exact dict.nodup

end Written

theorem list_ofJson_strings (items : List String) :
    (Decoder.list .string).ofJson (.strings items) = .ok items :=
  list_ofJson_map fun _ _ => rfl

theorem unsigned_ofJson_ofInteger (n : Unsigned64) :
    unsigned.ofJson (.ofInteger n.toJsonInteger) = .ok n := by
  show unsignedOfNumber (.integer n.toJsonInteger) = .ok n
  rw [unsignedOfNumber, Unsigned64.toJsonInteger, Bounded.ofInt?_val]

end Decoder

theorem Json.plain_strings (depth : Nat) (items : List String) :
    (Json.strings items).Plain (depth + 1) :=
  .array (List.forall_mem_map.2 fun s _ => .string s)

/-! ### Specifications -/

namespace Specification

/-- The parts of a specification, which are written if they are set. -/
def parts (s : Specification) : List (String × Option Json) :=
  [ ("allowedFields", s.allowedFields.map .strings),
    ("forbiddenFields",
      if s.forbiddenFields.isEmpty then none else some (.strings s.forbiddenFields)),
    ("allowedRelations", s.allowedRelations.map .strings),
    ("maxPageSize", s.maxPageSize.map fun n => .ofInteger n.toJsonInteger) ]

theorem toJson_eq (s : Specification) : s.toJson = .object (optionalMembers s.parts) := by
  simp [toJson, optionalMembers, parts]

theorem nodup_keys_parts (s : Specification) : (s.parts.map Prod.fst).Nodup := by simp [parts]

theorem agrees_decoder : decoder.Agrees := by
  refine Agrees.record ?_ "Specification" empty
  simp only [List.forall_mem_cons]
  exact ⟨agrees_string.list.optional.member, agrees_string.list.member,
    agrees_string.list.optional.member, agrees_unsigned.optional.member, nofun⟩

theorem plain_toJson (depth : Nat) (s : Specification) : s.toJson.Plain (depth + 2) := by
  have hlist (b : Option (List String)) : ∀ v ∈ b.map Json.strings, v.Plain (depth + 1) :=
    Option.forall_mem_map.2 fun items _ => Json.plain_strings depth items
  rw [toJson_eq]
  refine plain_optionalMembers s.nodup_keys_parts ?_
  simp only [parts, List.forall_mem_cons]
  refine ⟨hlist _, ?_, hlist _, Option.forall_mem_map.2 fun n _ => .integer _, nofun⟩
  split
  · exact nofun
  · rintro v ⟨⟩
    exact Json.plain_strings depth _

theorem fills_forbiddenFields (items : List String) :
    Fills (.list .string) [] (if items.isEmpty then none else some (.strings items)) items := by
  cases items with
  | nil => exact .absent
  | cons item items => exact .given (list_ofJson_strings _)

/-- A specification is read back as it was. -/
theorem ofJson_toJson (s : Specification) : decoder.ofJson s.toJson = .ok s := by
  have hlist (b : Option (List String)) :
      Fills (Decoder.list .string).optional none (b.map Json.strings) b :=
    fills_optional (by simp [Json.strings]) list_ofJson_strings b
  have hsize : Fills unsigned.optional none
      (s.maxPageSize.map fun n => Json.ofInteger n.toJsonInteger) s.maxPageSize :=
    fills_optional (by simp [Json.ofInteger]) unsigned_ofJson_ofInteger s.maxPageSize
  rw [toJson_eq]
  refine record_ofJson_optionalMembers "Specification" (by simp [Member.optional])
    s.nodup_keys_parts ?_
  -- an unset part leaves the record as it starts, which is unset as well
  refine foldlM_optionalMembers_cons rfl (hlist _) rfl ?_
  refine foldlM_optionalMembers_cons rfl (fills_forbiddenFields _) rfl ?_
  refine foldlM_optionalMembers_cons rfl (hlist _) rfl ?_
  refine foldlM_optionalMembers_cons rfl hsize rfl ?_
  rfl

theorem ofText_toJson (s : Specification) : ofText s.toJson.compact = .ok s := by
  -- of the 127 levels that a reader follows, a specification takes two
  rw [ofText, agrees_decoder.ofText_compact (s.plain_toJson 125) s.ofJson_toJson]
  rfl

end Specification

/-! ### Handlers -/

namespace TypeHandler

/-- The parts of a handler that are written. -/
def parts (h : TypeHandler) : List (String × Option Json) :=
  [("type", some (.string h.type.name)), ("operator", h.operator.map fun o => .string o.name)]

theorem toJson_eq (h : TypeHandler) : h.toJson = .object (optionalMembers h.parts) := by
  cases ho : h.operator <;> simp [toJson, optionalMembers, optionalMember, parts, ho]

theorem nodup_keys_parts (h : TypeHandler) : (h.parts.map Prod.fst).Nodup := by simp [parts]

theorem agrees_decoder : decoder.Agrees := by
  refine Agrees.record ?_ "FieldTypeHandler" (ofType .string)
  simp only [List.forall_mem_cons]
  exact ⟨(agrees_choice _).member, (agrees_choice _).optional.member, nofun⟩

theorem plain_toJson (depth : Nat) (h : TypeHandler) : h.toJson.Plain (depth + 1) := by
  rw [toJson_eq]
  refine plain_optionalMembers h.nodup_keys_parts ?_
  simp only [parts, List.forall_mem_cons, Option.mem_some_iff, forall_eq']
  exact ⟨.string _, Option.forall_mem_map.2 fun o _ => .string _, nofun⟩

/-- A handler is read back without its custom function. -/
theorem ofJson_toJson (h : TypeHandler) :
    decoder.ofJson h.toJson = .ok { h with custom := none } := by
  have htype : FieldType.decoder.ofJson (.string h.type.name) = .ok h.type :=
    choice_ofJson_name (by decide) h.type.mem_all
  have hoperator (o : Operator) : Operator.decoder.ofJson (.string o.name) = .ok o :=
    choice_ofJson_name (by decide) o.mem_all
  rw [toJson_eq]
  refine record_ofJson_optionalMembers "FieldTypeHandler" (by simp [Member.optional])
    h.nodup_keys_parts ?_
  refine foldlM_optionalMembers_cons rfl (.given htype) rfl ?_
  refine foldlM_optionalMembers_cons rfl (fills_optional (by simp) hoperator _) rfl ?_
  rfl

end TypeHandler

namespace RelationHandler

/-- The parts of a handler that are written. -/
def parts (h : RelationHandler) : List (String × Option Json) :=
  [ ("type", some (.string h.cardinality.name)),
    ("relationQuery", h.quantifier?.map fun q => .string q.name),
    ("nestedField", h.sortColumn.map .string) ]

theorem toJson_eq (h : RelationHandler) : h.toJson = .object (optionalMembers h.parts) := by
  cases hq : h.quantifier? <;> cases hc : h.sortColumn <;>
    simp [toJson, optionalMembers, optionalMember, parts, hq, hc]

theorem nodup_keys_parts (h : RelationHandler) : (h.parts.map Prod.fst).Nodup := by simp [parts]

theorem agrees_decoder : decoder.Agrees := by
  refine Agrees.record ?_ "RelationHandler" (ofCardinality .one)
  simp only [List.forall_mem_cons]
  exact ⟨(agrees_choice _).member, (agrees_choice _).optional.member,
    agrees_string.optional.member, nofun⟩

theorem plain_toJson (depth : Nat) (h : RelationHandler) : h.toJson.Plain (depth + 1) := by
  rw [toJson_eq]
  refine plain_optionalMembers h.nodup_keys_parts ?_
  simp only [parts, List.forall_mem_cons, Option.mem_some_iff, forall_eq']
  exact ⟨.string _, Option.forall_mem_map.2 fun q _ => .string _,
    Option.forall_mem_map.2 fun c _ => .string c, nofun⟩

/-- A handler is read back without its custom function. -/
theorem ofJson_toJson (h : RelationHandler) :
    decoder.ofJson h.toJson = .ok { h with custom := none } := by
  have hcardinality : Cardinality.decoder.ofJson (.string h.cardinality.name) = .ok h.cardinality :=
    choice_ofJson_name (by decide) h.cardinality.mem_all
  have hquantifier (q : Quantifier) : Quantifier.decoder.ofJson (.string q.name) = .ok q :=
    choice_ofJson_name (by decide) q.mem_all
  rw [toJson_eq]
  refine record_ofJson_optionalMembers "RelationHandler" (by simp [Member.optional])
    h.nodup_keys_parts ?_
  refine foldlM_optionalMembers_cons rfl (.given hcardinality) rfl ?_
  refine foldlM_optionalMembers_cons rfl (fills_optional (by simp) hquantifier _) rfl ?_
  refine foldlM_optionalMembers_cons rfl (fills_optional (by simp) (fun _ => rfl) _) rfl ?_
  rfl

end RelationHandler

/-! ### Mappings -/

namespace Mapping

/-- No handler has a custom function. -/
structure Declarative (m : Mapping) : Prop where
  types : ∀ path, ∀ h ∈ m.typeHandlers.get? path, h.custom = none
  relations : ∀ path, ∀ h ∈ m.relationHandlers.get? path, h.custom = none

/-- The four dictionaries hold the same under every path, in whatever order they list it. -/
structure SameEntries (m n : Mapping) : Prop where
  relations : ∀ path, m.relations.get? path = n.relations.get? path
  columns : ∀ path, m.columns.get? path = n.columns.get? path
  typeHandlers : ∀ path, m.typeHandlers.get? path = n.typeHandlers.get? path
  relationHandlers : ∀ path, m.relationHandlers.get? path = n.relationHandlers.get? path

variable {m n : Mapping}

/-! Custom functions come in by a handler, and by nothing else that a mapping is put together of. -/

theorem declarative_empty : empty.Declarative := ⟨nofun, nofun⟩

theorem Declarative.moveTo (h : m.Declarative) (field relation : String) :
    (m.moveTo field relation).Declarative := ⟨h.types, h.relations⟩

theorem Declarative.rename (h : m.Declarative) (field column : String) :
    (m.rename field column).Declarative := ⟨h.types, h.relations⟩

theorem Declarative.withTypeHandler (h : m.Declarative) (field : String) {handler : TypeHandler}
    (hhandler : handler.custom = none) : (m.withTypeHandler field handler).Declarative where
  types path := by
    rw [Mapping.withTypeHandler, Dict.get?_insert]
    split
    · rintro _ ⟨⟩
      exact hhandler
    · exact h.types path
  relations := h.relations

theorem Declarative.withRelationHandler (h : m.Declarative) (field : String)
    {handler : RelationHandler} (hhandler : handler.custom = none) :
    (m.withRelationHandler field handler).Declarative where
  types := h.types
  relations path := by
    rw [Mapping.withRelationHandler, Dict.get?_insert]
    split
    · rintro _ ⟨⟩
      exact hhandler
    · exact h.relations path

theorem SameEntries.declarative (h : m.SameEntries n) (hm : m.Declarative) : n.Declarative where
  types path := by
    rw [← h.typeHandlers]
    exact hm.types path
  relations path := by
    rw [← h.relationHandlers]
    exact hm.relations path

theorem SameEntries.agreesOn (h : m.SameEntries n) (path : String) : m.AgreesOn n path where
  relation := h.relations path
  column := h.columns path
  handler _ := h.relationHandlers path
  type := h.typeHandlers path

theorem SameEntries.resolve (h : m.SameEntries n) (c : Condition) : m.resolve c = n.resolve c := by
  have hbelow : m.AgreesBelow n "" c.leaves := fun chain name p _ => h.agreesOn _
  rw [Mapping.resolve, Mapping.resolve, hbelow.resolveIn]

theorem SameEntries.resolveOrder (h : m.SameEntries n) (order : SortOrder) :
    m.resolveOrder order = n.resolveOrder order := by
  cases order with
  | field name direction => exact (h.agreesOn name).resolveOrder direction
  | unsorted | related | custom => rfl

/-- The parts of a mapping, all of which are written. -/
def parts (m : Mapping) : List (String × Option Json) :=
  [ ("fieldMappings", some (.object (m.relations.entries.map fun e => (e.1, .string e.2)))),
    ("fieldNameMappings", some (.object (m.columns.entries.map fun e => (e.1, .string e.2)))),
    ("fieldTypeHandlers",
      some (.object (m.typeHandlers.entries.map fun e => (e.1, e.2.toJson)))),
    ("relationHandlers",
      some (.object (m.relationHandlers.entries.map fun e => (e.1, e.2.toJson)))) ]

theorem toJson_eq (m : Mapping) : m.toJson = .object (optionalMembers m.parts) := rfl

theorem nodup_keys_parts (m : Mapping) : (m.parts.map Prod.fst).Nodup := by simp [parts]

theorem agrees_decoder : decoder.Agrees := by
  refine Agrees.record ?_ "TransformConfig" empty
  simp only [List.forall_mem_cons]
  exact ⟨agrees_string.dictionary.member, agrees_string.dictionary.member,
    TypeHandler.agrees_decoder.dictionary.member,
    RelationHandler.agrees_decoder.dictionary.member, nofun⟩

theorem plain_toJson (depth : Nat) (m : Mapping) : m.toJson.Plain (depth + 3) := by
  rw [toJson_eq]
  refine plain_optionalMembers m.nodup_keys_parts ?_
  simp only [parts, List.forall_mem_cons, Option.mem_some_iff, forall_eq']
  exact ⟨plain_dictionary fun e _ => .string _, plain_dictionary fun e _ => .string _,
    plain_dictionary fun e _ => TypeHandler.plain_toJson depth e.2,
    plain_dictionary fun e _ => RelationHandler.plain_toJson depth e.2, nofun⟩

/-- A mapping without custom functions is read back as it was. -/
theorem ofJson_toJson (h : m.Declarative) : decoder.ofJson m.toJson = .ok m := by
  have htype : ∀ e ∈ m.typeHandlers.entries, TypeHandler.decoder.ofJson e.2.toJson = .ok e.2 := by
    intro e he
    rw [e.2.ofJson_toJson, ← h.types e.1 e.2 (Entries.get?_of_mem m.typeHandlers.nodup he)]
  have hrelation : ∀ e ∈ m.relationHandlers.entries,
      RelationHandler.decoder.ofJson e.2.toJson = .ok e.2 := by
    intro e he
    rw [e.2.ofJson_toJson, ← h.relations e.1 e.2 (Entries.get?_of_mem m.relationHandlers.nodup he)]
  rw [toJson_eq]
  refine record_ofJson_optionalMembers "TransformConfig" (by simp [Member.optional])
    m.nodup_keys_parts ?_
  refine foldlM_optionalMembers_cons rfl (.given (dictionary_ofJson_map fun _ _ => rfl)) rfl ?_
  refine foldlM_optionalMembers_cons rfl (.given (dictionary_ofJson_map fun _ _ => rfl)) rfl ?_
  refine foldlM_optionalMembers_cons rfl (.given (dictionary_ofJson_map htype)) rfl ?_
  refine foldlM_optionalMembers_cons rfl (.given (dictionary_ofJson_map hrelation)) rfl ?_
  rfl

theorem ofText_toJson (h : m.Declarative) : ofText m.toJson.compact = .ok m := by
  -- and a mapping three
  rw [ofText, agrees_decoder.ofText_compact (m.plain_toJson 124) (ofJson_toJson h)]
  rfl

end Mapping

/-- **What is saved is loaded unchanged**: a specification from its text, and a mapping without
custom functions from any text that lists its entries. Every request is judged the same by the one,
and every condition and sort order is resolved to the same by the other. -/
theorem ofText_saved :
    (∀ s : Specification, ∃ t, Specification.ofText s.toJson.compact = .ok t ∧ t = s ∧
      ∀ r : Request, r.validate (some t) = r.validate (some s)) ∧
    ∀ m : Mapping, m.Declarative → ∀ listed : Mapping, m.SameEntries listed →
      ∃ n, Mapping.ofText listed.toJson.compact = .ok n ∧ m.SameEntries n ∧
        (∀ c : Condition, n.resolve c = m.resolve c) ∧
        ∀ order : SortOrder, n.resolveOrder order = m.resolveOrder order := by
  refine ⟨fun s => ⟨s, s.ofText_toJson, rfl, fun _ => rfl⟩, fun m hm listed h => ?_⟩
  have hread := Mapping.ofText_toJson (h.declarative hm)
  exact ⟨listed, hread, h, fun c => (h.resolve c).symm, fun order => (h.resolveOrder order).symm⟩

/-- A specification that allows no field and any relation, and a mapping whose relations are listed
in another order than they were entered in. -/
theorem ofText_saved_in_another_order :
    let m := ((((Mapping.empty.moveTo "author.name" "person").moveTo "tags.label" "tag").rename
      "author.name" "full\"name").withTypeHandler "age" ⟨.number, some .gte, none⟩)
      |>.withRelationHandler "tags.label" ⟨.many, some .every, some "position", none⟩
    let listed := { m with
      relations := .ofList [("tags.label", "tag"), ("author.name", "person")] }
    m.Declarative ∧ m.SameEntries listed ∧
    (∃ t, Specification.ofText (Specification.toJson ⟨some [], [], none, none⟩).compact = .ok t ∧
      t.allowedFields = some [] ∧ t.allowedRelations = none) ∧
    ∃ n, Mapping.ofText listed.toJson.compact = .ok n ∧
      ∀ c : Condition, n.resolve c = m.resolve c := by
  intro m listed
  have hm : m.Declarative :=
    (((Mapping.declarative_empty.moveTo _ _).moveTo _ _).rename _ _).withTypeHandler _ rfl
      |>.withRelationHandler _ rfl
  have hlisted : m.SameEntries listed := by
    refine ⟨fun path => ?_, fun _ => rfl, fun _ => rfl, fun _ => rfl⟩
    show ((Dict.empty.insert "author.name" "person").insert "tags.label" "tag").get? path =
      ((Dict.empty.insert "tags.label" "tag").insert "author.name" "person").get? path
    simp only [Dict.get?_insert]
    by_cases htags : "tags.label" = path
    · subst htags
      rfl
    · simp only [if_neg htags]
  obtain ⟨hspecification, hmapping⟩ := ofText_saved
  obtain ⟨t, hread, rfl, -⟩ := hspecification ⟨some [], [], none, none⟩
  obtain ⟨n, hn, -, hresolve, -⟩ := hmapping m hm listed hlisted
  exact ⟨hm, hlisted, ⟨_, hread, rfl, rfl⟩, n, hn, hresolve⟩

end ListQuery
