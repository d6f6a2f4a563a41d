import ListQuery.Coercion.Predicate
import ListQuery.Proofs.Acceptance
import ListQuery.Proofs.DateText
import ListQuery.Proofs.SingleParts

/-!
# The order of dates, checked and coerced

The check of a range compares its bounds as instants, and only if both are in the strict form. The
coercion of a date reads more forms than that one, blanks around them included, and makes a text of
what it reads. A store that compares such texts should find the order that the check has found.

It does (`reversed_range_iff`): the check refuses a range of two strict dates exactly if the text
that the first is coerced to is the greater one. The texts as they were sent are not in this order:
`00:00:00Z` comes behind `00:00:00.500Z`, since the fraction may be left out.
-/

namespace ListQuery

open Calendar

/-! ### The message -/

/-- No other problem is worded like a range that runs backwards. -/
theorem Problem.message_eq_reversedRange_iff {p : Problem} {key : String} :
    p.message = (Problem.reversedRange key).message ↔ p = .reversedRange key := by
  refine ⟨fun h => ?_, congrArg message⟩
  have hhead := congrArg (fun message => message.toList.head?) h
  unfold message at h hhead
  cases p with
  | reversedRange other =>
    rw [(String.append_right_inj _).1 ((String.append_left_inj _).1 h)]
  | _ => simp at hhead

namespace Specification

variable {s : Specification} {v : Json} {t : Instant}

theorem reversedRange_notMem_checkField (path key : String) :
    Problem.reversedRange key ∉ (s.checkField path).errors := by
  have hname : Problem.reversedRange key ∉ (s.checkName path).errors := by
    unfold checkName
    repeat' split
    all_goals simp [Report.ofError, Report.clean]
  have hrelation : Problem.reversedRange key ∉ (s.checkRelation path).errors := by
    unfold checkRelation
    repeat' split
    all_goals simp [Report.ofError, Report.clean]
  rw [checkField, Report.errors_append, List.mem_append, not_or]
  exact ⟨hname, hrelation⟩

theorem reversedRange_mem_checkBounds_iff {r : RangeFilter} :
    .reversedRange r.key ∈ (checkBounds r).errors ↔ Backwards r.start r.stop := by
  unfold checkBounds Backwards
  cases boundInstant? r.start with
  | none => simp [Report.clean]
  | some a =>
    cases boundInstant? r.stop with
    | none => simp [Report.clean]
    | some b => cases h : a.isAfter b <;> simp [h, Report.ofError, Report.clean]

/-- A range alone is reported as reversed for its bounds only. -/
theorem reversedRange_reported_iff {r : RangeFilter} :
    (Problem.reversedRange r.key).message ∈
        ((Request.Part.range r).alone.validate (some s)).errorMessages ↔
      Backwards r.start r.stop := by
  have hmem : (Problem.reversedRange r.key).message ∈
        ((Request.Part.range r).alone.validate (some s)).errorMessages ↔
      .reversedRange r.key ∈ ((Request.Part.range r).alone.validate (some s)).errors := by
    rw [Report.errorMessages, List.mem_map]
    simp only [Problem.message_eq_reversedRange_iff, exists_eq_right]
  rw [hmem, Request.validate, check_alone, checkPart, checkRange, Report.errors_append,
    List.mem_append, or_iff_right (reversedRange_notMem_checkField _ _),
    reversedRange_mem_checkBounds_iff]

/-! ### The coercion of a strict date -/

/-- A text in the strict form that is a date. -/
def IsStrictDate (v : Json) : Prop :=
  ∃ text t, v = .string text ∧ isStrictUtc text.toList = true ∧ rfc3339? text.toList = some t

theorem boundInstant?_eq_some_iff :
    boundInstant? v = some t ↔
      ∃ text, v = .string text ∧ isStrictUtc text.toList = true ∧
        rfc3339? text.toList = some t := by
  cases v with
  | string text => simp [boundInstant?, Instant.ofStrictUtc?]
  | _ => simp [boundInstant?]

theorem isStrictDate_iff : IsStrictDate v ↔ ∃ t, boundInstant? v = some t := by
  simp only [boundInstant?_eq_some_iff]
  exact exists_comm

/-- Both readers of dates find the same instant in the strict form. -/
theorem toDate?_of_boundInstant? (h : boundInstant? v = some t) :
    v.toDate? = some (.string t.text) := by
  obtain ⟨text, rfl, hstrict, hread⟩ := boundInstant?_eq_some_iff.1 h
  have hinstant : (Json.string text).toInstant? = some t :=
    Instant.ofString?_of_rfc3339? (not_blank_of_isStrictUtc hstrict) hread
  rw [Json.toDate?, hinstant, Option.map_some]

theorem text_lt_text_iff_isAfter {a b : Instant} {start stop : Json}
    (hstart : boundInstant? start = some a) (hstop : boundInstant? stop = some b) :
    b.text < a.text ↔ a.isAfter b = true := by
  obtain ⟨_, -, hstrict, hread⟩ := boundInstant?_eq_some_iff.1 hstart
  obtain ⟨_, -, hstrict', hread'⟩ := boundInstant?_eq_some_iff.1 hstop
  obtain ⟨hyear, hcut⟩ := of_isStrictUtc hstrict hread
  obtain ⟨hyear', hcut'⟩ := of_isStrictUtc hstrict' hread'
  rw [Instant.text_lt_text_iff hyear' hyear, hcut, hcut']

/-- A range runs backwards if its bounds are strict dates that are coerced to texts in the wrong
order. -/
theorem backwards_iff_coerced {start stop : Json} :
    Backwards start stop ↔
      IsStrictDate start ∧ IsStrictDate stop ∧
        ∃ a b, start.toDate? = some (.string a) ∧ stop.toDate? = some (.string b) ∧ b < a := by
  constructor
  · rintro ⟨a, b, ha, hb, hafter⟩
    exact ⟨isStrictDate_iff.2 ⟨a, ha⟩, isStrictDate_iff.2 ⟨b, hb⟩, a.text, b.text,
      toDate?_of_boundInstant? ha, toDate?_of_boundInstant? hb,
      (text_lt_text_iff_isAfter ha hb).2 hafter⟩
  · rintro ⟨hstart, hstop, x, y, hx, hy, hlt⟩
    obtain ⟨a, ha⟩ := isStrictDate_iff.1 hstart
    obtain ⟨b, hb⟩ := isStrictDate_iff.1 hstop
    obtain rfl : a.text = x := by simpa [toDate?_of_boundInstant? ha] using hx
    obtain rfl : b.text = y := by simpa [toDate?_of_boundInstant? hb] using hy
    exact ⟨a, b, ha, hb, (text_lt_text_iff_isAfter ha hb).1 hlt⟩

/-- **The check of a range agrees with the coercion of its bounds.** A range alone is reported as
reversed exactly if its bounds are strict dates and the first is coerced to the greater text. So two
such bounds that pass the validation, under whatever specification, become a range whose lower bound
is no greater text than the upper one. -/
theorem reversed_range_iff (s : Specification) (r : RangeFilter) :
    ((Problem.reversedRange r.key).message ∈
        ((Request.Part.range r).alone.validate (some s)).errorMessages ↔
      IsStrictDate r.start ∧ IsStrictDate r.stop ∧
        ∃ a b, r.start.toDate? = some (.string a) ∧ r.stop.toDate? = some (.string b) ∧ b < a) ∧
    (IsStrictDate r.start → IsStrictDate r.stop →
      ((Request.Part.range r).alone.validate (some s)).isValid = true →
      ∀ h : TypeHandler, h.type = .date → h.custom = none →
        ∃ a b, (Predicate.range r.start r.stop).process (some h) =
          some (.range (.string a) (.string b)) ∧ ¬ b < a) := by
  refine ⟨reversedRange_reported_iff.trans backwards_iff_coerced, ?_⟩
  intro hstart hstop hvalid h htype hcustom
  obtain ⟨a, ha⟩ := isStrictDate_iff.1 hstart
  obtain ⟨b, hb⟩ := isStrictDate_iff.1 hstop
  have hforwards : ¬ Backwards r.start r.stop := by
    rw [← isValid_checkBounds_iff]
    rw [Request.validate, check_alone, checkPart, checkRange, Report.isValid_append,
      Bool.and_eq_true] at hvalid
    exact hvalid.2
  refine ⟨a.text, b.text, ?_, fun hlt => hforwards ?_⟩
  · simp only [Predicate.process, TypeHandler.ofRange, hcustom, htype, TypeHandler.coerceBound,
      toDate?_of_boundInstant? ha, toDate?_of_boundInstant? hb]
    rfl
  · exact ⟨a, b, ha, hb, (text_lt_text_iff_isAfter ha hb).1 hlt⟩

/-- A half second is kept in order behind no fraction at all, although the texts as they were sent
are in the other order. -/
theorem range_of_half_second :
    "2016-12-31T23:59:60.500Z" < "2016-12-31T23:59:60Z" ∧
    ∃ a b, (Predicate.range (.string "2016-12-31T23:59:60Z")
        (.string "2016-12-31T23:59:60.500Z")).process (some (.ofType .date)) =
      some (.range (.string a) (.string b)) ∧ ¬ b < a :=
  ⟨by decide, (reversed_range_iff .empty
    ⟨"born", .string "2016-12-31T23:59:60Z", .string "2016-12-31T23:59:60.500Z"⟩).2
    ⟨_, _, rfl, by decide, rfl⟩ ⟨_, _, rfl, by decide, rfl⟩ (by decide +kernel)
    (.ofType .date) rfl rfl⟩

end Specification

end ListQuery
