import ListQuery.Proofs.CanonicalDates
import ListQuery.Proofs.DroppedFields
import ListQuery.Proofs.SecondPass

/-!
# Handlers on their own results

A handler without a custom function reads a value as its type and wraps it in its operator. What comes
out is a predicate, and so it can come to the same handler again, which then takes the value out of
its wrapper and reads it a second time. There are two places where this may not give the same:

* A date is read again from its own text. That works in the years with four digits, and only there
  (`coerceBound_coerceBound_iff`). A number is read from a number, and so it stays.
* An object can be taken for a wrapper. Strings and fields whose type is left to a custom function
  keep the value that they get, and if this is an object with members, an operator that wraps raw
  values gives it up to `Json.unwrap` (`rawValue_wrap`).

Without these two a handler is stable on its results, and with one of them it is not
(`process_process_iff`).
-/

namespace ListQuery

open Calendar

/-! ### Reading what was read -/

namespace Json

variable {v w : Json}

theorem exists_number_ofReal (x : Binary64) : ∃ n, ofReal x = .number n := by
  rw [ofReal]
  split
  · split
    · exact ⟨_, rfl⟩
    · exact ⟨_, rfl⟩
  · exact ⟨_, rfl⟩

theorem exists_number_of_toNumber? (h : v.toNumber? = some w) : ∃ n, w = .number n := by
  cases v with
  | number n => exact ⟨n, (Option.some.inj h).symm⟩
  | bool b => cases b <;> exact ⟨_, (Option.some.inj h).symm⟩
  | string text =>
    obtain ⟨x, -, rfl⟩ := Option.map_eq_some_iff.1 h
    exact exists_number_ofReal x
  | null | array | object => cases h

/-- Values are read to numbers, and a number is read as itself. -/
theorem toNumber?_toNumber? (h : v.toNumber? = some w) : w.toNumber? = some w := by
  obtain ⟨n, rfl⟩ := exists_number_of_toNumber? h
  rfl

theorem toDate?_text_iff (t : Instant) :
    (string t.text).toDate? = some (.string t.text) ↔ t.FourDigitYear := by
  rw [toDate?, toInstant?]
  constructor
  · intro h
    by_contra hyear
    rw [Instant.ofString?_text_eq_none hyear] at h
    cases h
  · intro hyear
    rw [Instant.ofString?_text_of_fourDigitYear hyear, Option.map_some, Instant.cut_text]

end Json

namespace TypeHandler

theorem coerceBound_coerceBound_iff {type : FieldType} {v w : Json}
    (h : coerceBound type v = some w) :
    coerceBound type w = some w ↔
      (type = .date → ∀ t, v.toInstant? = some t → t.FourDigitYear) := by
  cases type with
  | number => simpa [coerceBound] using Json.toNumber?_toNumber? h
  | date =>
    obtain ⟨t, ht, rfl⟩ := Option.map_eq_some_iff.1 h
    simp [coerceBound, Json.toDate?_text_iff, ht]
  | string | boolean | custom => simp [coerceBound]

variable {h : TypeHandler} {raw v : Json}

/-! ### Reading and wrapping -/

/-- A value as the type of a handler has it. -/
def read (h : TypeHandler) (raw : Json) : Option Json :=
  if h.type = .boolean then some (.bool raw.toBoolean) else coerceBound h.type raw

/-- The operator that a handler wraps in; a type that is left to a custom function has none. -/
def comparison (h : TypeHandler) : Option Operator :=
  match h.type with
  | .number | .date => some (h.operator.getD .equals)
  | .boolean => some .equals
  | .string => some (h.operator.getD .contains)
  | .custom => none

/-- A value in the wrapper of a handler. -/
def wrap (h : TypeHandler) (v : Json) : Predicate :=
  match h.comparison with
  | some operator => .compare operator v
  | none => .ofRaw v

/-- What a handler wraps is unwrapped when it is looked at again. -/
def Peels (h : TypeHandler) : Prop := h.comparison.all Operator.wrapsRawValue = true

instance : Decidable h.Peels := inferInstanceAs (Decidable (_ = _))

/-- The type takes every value as it is. -/
def KeepsRaw (h : TypeHandler) : Prop := h.type = .string ∨ h.type = .custom

theorem ofRaw_eq_map_wrap (hc : h.custom = none) (raw : Json) :
    h.ofRaw raw = (h.read raw).map h.wrap := by
  obtain ⟨type, operator, custom⟩ := h
  obtain rfl : custom = none := hc
  cases type <;> rfl

theorem wrap_injective (h : TypeHandler) : Function.Injective h.wrap := by
  intro v w hvw
  rw [wrap, wrap] at hvw
  cases hcomparison : h.comparison with
  | some operator =>
    rw [hcomparison] at hvw
    exact (Predicate.compare.inj hvw).2
  | none =>
    rw [hcomparison] at hvw
    exact Predicate.ofRaw_injective hvw

theorem isRange_wrap (h : TypeHandler) (v : Json) : (h.wrap v).isRange = false := by
  rw [wrap]
  cases h.comparison with
  | some operator => rfl
  | none => exact Predicate.isRange_ofRaw v

theorem rawValue_wrap (h : TypeHandler) (v : Json) :
    (h.wrap v).rawValue = if h.Peels then v.unwrap else v := by
  rw [wrap]
  cases hcomparison : h.comparison with
  | some operator => simp [Predicate.rawValue, Peels, hcomparison]
  | none => simp [Predicate.rawValue_ofRaw, Peels, hcomparison]

theorem read_of_keepsRaw (hk : h.KeepsRaw) (raw : Json) : h.read raw = some raw := by
  rcases hk with hk | hk <;> simp [read, hk, coerceBound]

/-- What is read as a number, a boolean or a date is no object, and so no wrapper. -/
theorem unwrap_of_read (hk : ¬ h.KeepsRaw) (hv : h.read raw = some v) : v.unwrap = v := by
  rw [read] at hv
  split at hv
  case isTrue =>
    obtain rfl := Option.some.inj hv
    rfl
  case isFalse hboolean =>
    cases htype : h.type with
    | number =>
      rw [htype] at hv
      obtain ⟨n, rfl⟩ := Json.exists_number_of_toNumber? hv
      rfl
    | date =>
      rw [htype] at hv
      obtain ⟨t, -, rfl⟩ := Option.map_eq_some_iff.1 hv
      rfl
    | boolean => exact absurd htype hboolean
    | string => exact absurd (.inl htype) hk
    | custom => exact absurd (.inr htype) hk

theorem read_read_iff (hv : h.read raw = some v) :
    h.read v = some v ↔
      (h.type = .date → ∀ t, raw.toInstant? = some t → t.FourDigitYear) := by
  rw [read] at hv ⊢
  split at hv
  case isTrue hboolean =>
    obtain rfl := Option.some.inj hv
    simp [hboolean, Json.toBoolean]
  case isFalse hboolean => rw [if_neg hboolean, coerceBound_coerceBound_iff hv]

/-- A wrapped value comes out of the handler again exactly if neither its date nor its members are in
the way. -/
theorem ofRaw_rawValue_wrap_iff (hc : h.custom = none) (hv : h.read raw = some v) :
    h.ofRaw (h.wrap v).rawValue = some (h.wrap v) ↔
      (h.type = .date → ∀ t, raw.toInstant? = some t → t.FourDigitYear) ∧
        (h.KeepsRaw → h.Peels → ∀ member rest, raw ≠ .object (member :: rest)) := by
  rw [ofRaw_eq_map_wrap hc, ← Option.map_some, (Option.map_injective h.wrap_injective).eq_iff,
    rawValue_wrap, ← read_read_iff hv]
  by_cases hk : h.KeepsRaw
  · rw [read_of_keepsRaw hk] at hv
    obtain rfl := Option.some.inj hv
    simp only [read_of_keepsRaw hk, ← Json.unwrap_eq_self_iff]
    split <;> simp [*]
  · simp [unwrap_of_read hk hv, hk]

end TypeHandler

/-! ### Stable results -/

namespace Predicate

variable {p q : Predicate} {h : TypeHandler}

/-- The instants that a predicate asks for are in years with four digits. -/
def FourDigitYears (p : Predicate) : Prop :=
  ∀ v ∈ p.operands, ∀ t, v.toInstant? = some t → t.FourDigitYear

/-- What a handler makes of a predicate is stable exactly if a date that it read is in a year with
four digits, and an object that it kept is not taken for a wrapper. -/
theorem process_process_iff (hc : h.custom = none) (hp : p.process (some h) = some q) :
    q.process (some h) = some q ↔
      (h.type = .date → p.FourDigitYears) ∧
        (p.isRange = false → h.KeepsRaw → h.Peels →
          ∀ member rest, p.rawValue ≠ .object (member :: rest)) := by
  cases p with
  | range lower upper =>
    rw [process_range hc, Option.bind_eq_some_iff] at hp
    obtain ⟨lower', hlower, hp⟩ := hp
    obtain ⟨upper', hupper, rfl⟩ := Option.map_eq_some_iff.1 hp
    have hbounds : (range lower' upper').process (some h) = some (.range lower' upper') ↔
        TypeHandler.coerceBound h.type lower' = some lower' ∧
          TypeHandler.coerceBound h.type upper' = some upper' := by
      simp [process_range hc, Option.bind_eq_some_iff]
    rw [hbounds, TypeHandler.coerceBound_coerceBound_iff hlower,
      TypeHandler.coerceBound_coerceBound_iff hupper, ← imp_and]
    simp [FourDigitYears, operands, isRange]
  | equals | contains | compare | custom =>
    rw [process_of_isRange_eq_false rfl, TypeHandler.ofRaw_eq_map_wrap hc] at hp
    obtain ⟨v, hv, rfl⟩ := Option.map_eq_some_iff.1 hp
    rw [process_of_isRange_eq_false (h.isRange_wrap v), TypeHandler.ofRaw_rawValue_wrap_iff hc hv]
    simp [FourDigitYears, operands, isRange]

/-- **Stability of handlers.** A handler without a custom function leaves its own results as they
are, whatever its type and operator, if the value was no object or the predicate a range, and if
dates are in years with four digits. -/
theorem process_stable (hc : h.custom = none) (hp : p.process (some h) = some q)
    (hraw : p.isRange = true ∨ ∀ members, p.rawValue ≠ .object members)
    (hdate : h.type = .date → p.FourDigitYears) : q.process (some h) = some q := by
  rw [process_process_iff hc hp]
  refine ⟨hdate, ?_⟩
  intro hrange _ _ member rest
  rcases hraw with hraw | hraw
  · rw [hrange] at hraw
    cases hraw
  · exact hraw (member :: rest)

/-- A leap second at the end of a year, in a wrapper and with an offset into the next year. Its
handler has an operator that wraps raw values, and so the date is unwrapped before it is read again. -/
theorem process_stable_of_leap_second :
    let h : TypeHandler := ⟨.date, some .startsWith, none⟩
    let p := Predicate.equals (.entry "equals" (.string "2017-01-01T00:59:60.25+01:00"))
    let q := Predicate.compare .startsWith (.string "2016-12-31T23:59:60.250Z")
    p.process (some h) = some q ∧ p.FourDigitYears ∧ q.process (some h) = some q := by
  intro h p q
  have hp : p.process (some h) = some q := by decide +kernel
  have hraw : p.rawValue = .string "2017-01-01T00:59:60.25+01:00" := by decide +kernel
  have hyear : (p.rawValue.toInstant?.map fun t => t.date.year) = some 2016 := by decide +kernel
  have hdate : p.FourDigitYears := by
    intro v hv t ht
    obtain rfl : v = p.rawValue := List.mem_singleton.1 hv
    rw [ht, Option.map_some, Option.some.injEq] at hyear
    rw [Instant.FourDigitYear, hyear]
    decide
  refine ⟨hp, hdate, process_stable rfl hp (.inr ?_) fun _ => hdate⟩
  intro members hobject
  rw [hraw] at hobject
  cases hobject

end Predicate

end ListQuery
