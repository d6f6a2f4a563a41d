import ListQuery.Coercion.Value
import ListQuery.Proofs.DateText

/-!
# Canonical dates

A value that is coerced to a date becomes the text of an instant. If the year of the instant has
four digits, this text has the canonical form `YYYY-MM-DDTHH:MM:SS.mmmZ`, and it is coerced to
itself. Any other year is written with a sign. The form with an offset has no place for it, and the
forms without an offset have none for the `Z` at the end: such a text is not canonical, and it
cannot be read again (`Json.toDate?_canonical`).

Years of more than four digits come from numbers, which are milliseconds since 1970, from texts
without an offset, and from texts with one that leads out of the first or the last day of the years
with four digits.
-/

namespace ListQuery.Calendar

variable {cs rest : List Char}

/-! ### Days and milliseconds since 1970 -/

/-- The four-digit years in days. -/
theorem Date.year_of_ofEpochDay? {day : Int} {d : Date} (h : ofEpochDay? day = some d) :
    0 ≤ d.year ∧ d.year ≤ 9999 ↔ -719528 ≤ day ∧ day ≤ 2932896 := by
  have hyear := year_of_ofParts? h
  have hrange : 0 ≤ (day + 719468) % 146097 ∧ (day + 719468) % 146097 < 146097 := by omega
  have hday : (day + 719468) / 146097 * 146097 + (day + 719468) % 146097 = day + 719468 := by
    omega
  generalize (day + 719468) % 146097 = dayOfCycle at hrange hday hyear
  generalize (day + 719468) / 146097 = cycle at hday hyear
  obtain ⟨n, rfl⟩ := Int.eq_ofNat_of_zero_le hrange.1
  rw [Int.toNat_natCast] at hyear
  have hlast : (n - n / 1460 + n / 36524 - n / 146096) / 365 = 399 ↔ 145731 ≤ n := by omega
  have hle : (n - n / 1460 + n / 36524 - n / 146096) / 365 ≤ 399 := by omega
  generalize (n - n / 1460 + n / 36524 - n / 146096) / 365 = yearOfCycle at hyear hlast hle
  -- January and February count to the next year, which in the last year ends the cycle
  by_cases hy : yearOfCycle = 399
  · subst hy
    split at hyear <;> split at hyear <;> omega
  · split at hyear <;> split at hyear <;> omega

/-- The four-digit years in milliseconds. -/
theorem Instant.fourDigitYear_of_ofEpochMillis? {ms : Int} {t : Instant}
    (h : ofEpochMillis? ms = some t) :
    t.FourDigitYear ↔ -62167219200000 ≤ ms ∧ ms ≤ 253402300799999 := by
  rw [ofEpochMillis?] at h
  cases hday : Date.ofEpochDay? (ms / 86400000) with
  | none => simp [hday] at h
  | some d =>
    simp only [hday] at h
    rw [FourDigitYear, (ofParts?_eq_some h).1, Date.year_of_ofEpochDay? hday]
    omega

/-! ### A text with a `Z` has an offset

What the forms without an offset pass over is blanks, digits, signs, points and separators, so a `Z`
stays in what is left. -/

theorem zone_notMem_takeWhile_isDigit : 'Z' ∉ cs.takeWhile Char.isDigit := fun h =>
  absurd (List.all_eq_true.1 List.all_takeWhile _ h) (by decide)

theorem zone_mem_dropWhile {p : Char → Bool} (h : 'Z' ∈ cs) (hp : p 'Z' = false) :
    'Z' ∈ cs.dropWhile p := by
  rw [← List.takeWhile_append_dropWhile (p := p) (l := cs), List.mem_append] at h
  refine h.resolve_left fun htaken => ?_
  rw [List.all_eq_true.1 List.all_takeWhile _ htaken] at hp
  cases hp

theorem zone_mem_of_expect {c : Char} (h : expect c cs = some rest) (hc : c ≠ 'Z')
    (hz : 'Z' ∈ cs) : 'Z' ∈ rest := by
  cases cs with
  | nil => cases h
  | cons d cs =>
    rw [expect] at h
    split at h
    case isTrue hd =>
      obtain rfl := Option.some.inj h
      exact (List.mem_cons.1 hz).resolve_left fun he => hc (hd.symm.trans he.symm)
    case isFalse => cases h

theorem zone_mem_of_fraction {nano : Nat} (h : fraction cs = some (nano, rest)) (hz : 'Z' ∈ cs) :
    'Z' ∈ rest := by
  unfold fraction at h
  split at h
  case h_1 cs =>
    simp only at h
    split at h
    case isTrue => cases h
    case isFalse =>
      obtain ⟨-, rfl⟩ := Prod.mk.inj (Option.some.inj h)
      exact zone_mem_dropWhile ((List.mem_cons.1 hz).resolve_left (by decide)) (by decide)
  case h_2 =>
    obtain ⟨-, rfl⟩ := Prod.mk.inj (Option.some.inj h)
    exact hz

theorem zone_mem_of_looseDigits {most n : Nat} (h : looseDigits most cs = some (n, rest))
    (hz : 'Z' ∈ cs) : 'Z' ∈ rest := by
  have hstart : 'Z' ∈ Text.trimStart cs := zone_mem_dropWhile hz (by decide)
  rw [looseDigits] at h
  generalize Text.trimStart cs = cs at h hstart
  obtain ⟨left, hleft⟩ :=
    (List.takeWhile_prefix (l := cs.take most) Char.isDigit).trans (List.take_prefix most cs)
  have hdigits := @zone_notMem_takeWhile_isDigit (cs.take most)
  generalize (cs.take most).takeWhile Char.isDigit = ds at h hleft hdigits
  subst hleft
  split at h
  case isTrue => cases h
  case isFalse =>
    obtain ⟨-, rfl⟩ := Prod.mk.inj (Option.some.inj h)
    rw [List.drop_left]
    exact (List.mem_append.1 hstart).resolve_left hdigits

theorem zone_mem_of_anyDigits {n : Nat} (h : anyDigits cs = some (n, rest)) (hz : 'Z' ∈ cs) :
    'Z' ∈ rest := by
  simp only [anyDigits] at h
  split at h
  case isTrue => cases h
  case isFalse =>
    obtain ⟨-, rfl⟩ := Prod.mk.inj (Option.some.inj h)
    exact zone_mem_dropWhile hz (by decide)

theorem zone_mem_of_looseYear {year : Int} (h : looseYear cs = some (year, rest))
    (hz : 'Z' ∈ cs) : 'Z' ∈ rest := by
  have hstart : 'Z' ∈ Text.trimStart cs := zone_mem_dropWhile hz (by decide)
  rw [looseYear] at h
  generalize Text.trimStart cs = cs at h hstart
  split at h
  case h_1 =>
    obtain ⟨⟨n, left⟩, hdigits, heq⟩ := Option.map_eq_some_iff.1 h
    obtain ⟨-, rfl⟩ := Prod.mk.inj heq
    exact zone_mem_of_anyDigits hdigits ((List.mem_cons.1 hstart).resolve_left (by decide))
  case h_2 =>
    obtain ⟨⟨n, left⟩, hdigits, heq⟩ := Option.map_eq_some_iff.1 h
    obtain ⟨-, rfl⟩ := Prod.mk.inj heq
    exact zone_mem_of_anyDigits hdigits ((List.mem_cons.1 hstart).resolve_left (by decide))
  case h_3 =>
    obtain ⟨⟨n, left⟩, hdigits, heq⟩ := Option.map_eq_some_iff.1 h
    obtain ⟨-, rfl⟩ := Prod.mk.inj heq
    exact zone_mem_of_looseDigits hdigits hstart

theorem zone_mem_of_looseDate {d : Date} (h : looseDate cs = some (d, rest)) (hz : 'Z' ∈ cs) :
    'Z' ∈ rest := by
  obtain ⟨⟨year, c₁⟩, h₁, h⟩ := Option.bind_eq_some_iff.1 h
  obtain ⟨c₂, h₂, h⟩ := Option.bind_eq_some_iff.1 h
  obtain ⟨⟨month, c₃⟩, h₃, h⟩ := Option.bind_eq_some_iff.1 h
  obtain ⟨c₄, h₄, h⟩ := Option.bind_eq_some_iff.1 h
  obtain ⟨⟨day, c₅⟩, h₅, h⟩ := Option.bind_eq_some_iff.1 h
  obtain ⟨date, -, h⟩ := Option.bind_eq_some_iff.1 h
  obtain ⟨-, rfl⟩ := Prod.mk.inj (Option.some.inj h)
  have hz := zone_mem_of_looseYear h₁ hz
  have hz := zone_mem_of_expect h₂ (by decide) hz
  have hz := zone_mem_of_looseDigits h₃ hz
  have hz := zone_mem_of_expect h₄ (by decide) hz
  exact zone_mem_of_looseDigits h₅ hz

theorem plainDate?_eq_none (hz : 'Z' ∈ cs) : plainDate? cs = none := by
  refine Option.eq_none_iff_forall_ne_some.2 fun t h => ?_
  obtain ⟨⟨date, c₁⟩, h₁, h⟩ := Option.bind_eq_some_iff.1 h
  obtain ⟨_, hend, -⟩ := Option.bind_eq_some_iff.1 h
  have hz := zone_mem_of_looseDate h₁ hz
  rw [atEnd_eq_some hend] at hz
  cases hz

theorem plainDateTime?_eq_none (hz : 'Z' ∈ cs) : plainDateTime? cs = none := by
  refine Option.eq_none_iff_forall_ne_some.2 fun t h => ?_
  obtain ⟨⟨date, c₁⟩, h₁, h⟩ := Option.bind_eq_some_iff.1 h
  obtain ⟨c₂, h₂, h⟩ := Option.bind_eq_some_iff.1 h
  obtain ⟨⟨hour, c₃⟩, h₃, h⟩ := Option.bind_eq_some_iff.1 h
  obtain ⟨c₄, h₄, h⟩ := Option.bind_eq_some_iff.1 h
  obtain ⟨⟨minute, c₅⟩, h₅, h⟩ := Option.bind_eq_some_iff.1 h
  obtain ⟨c₆, h₆, h⟩ := Option.bind_eq_some_iff.1 h
  obtain ⟨⟨second, c₇⟩, h₇, h⟩ := Option.bind_eq_some_iff.1 h
  obtain ⟨⟨nano, c₈⟩, h₈, h⟩ := Option.bind_eq_some_iff.1 h
  obtain ⟨_, hend, -⟩ := Option.bind_eq_some_iff.1 h
  have hz := zone_mem_of_looseDate h₁ hz
  have hz := zone_mem_of_expect h₂ (by decide) hz
  have hz := zone_mem_of_looseDigits h₃ hz
  have hz := zone_mem_of_expect h₄ (by decide) hz
  have hz := zone_mem_of_looseDigits h₅ hz
  have hz := zone_mem_of_expect h₆ (by decide) hz
  have hz := zone_mem_of_looseDigits h₇ hz
  have hz := zone_mem_of_fraction h₈ hz
  rw [atEnd_eq_some hend] at hz
  cases hz

/-! ### Years with a sign -/

namespace Instant

variable {t : Instant}

theorem yearText_of_not_fourDigitYear (h : ¬ t.FourDigitYear) :
    ∃ sign, (sign = '-' ∨ sign = '+') ∧
      yearText t.date.year = sign :: padded 4 t.date.year.natAbs := by
  rw [yearText]
  by_cases hneg : t.date.year < 0
  · exact ⟨'-', .inl rfl, if_pos hneg⟩
  · rw [if_neg hneg, if_pos (by rw [FourDigitYear] at h; omega)]
    exact ⟨'+', .inr rfl, rfl⟩

theorem not_blank_text (t : Instant) : ∀ c ∈ t.text.toList, Text.isBlank c = false := by
  have hpadded (w n : Nat) : ∀ c ∈ padded w n, Text.isBlank c = false := fun _ h =>
    Text.isBlank_of_isDigit (isDigit_of_mem_padded h)
  have hyear : ∀ c ∈ yearText t.date.year, Text.isBlank c = false := by
    by_cases h : t.FourDigitYear
    · rw [yearText_of_fourDigitYear h]
      exact hpadded _ _
    · obtain ⟨sign, hsign, heq⟩ := yearText_of_not_fourDigitYear h
      rw [heq, List.forall_mem_cons]
      exact ⟨by rcases hsign with rfl | rfl <;> decide, hpadded _ _⟩
  rw [toList_text]
  simp only [List.forall_mem_append, List.forall_mem_cons]
  exact ⟨hyear, by decide, hpadded _ _, by decide, hpadded _ _, by decide, hpadded _ _, by decide,
    hpadded _ _, by decide, hpadded _ _, by decide, hpadded _ _, by decide, by simp⟩

theorem zone_mem_toList_text (t : Instant) : 'Z' ∈ t.text.toList := by
  rw [toList_text]
  simp

/-- The text of a year with a sign starts with the sign. -/
theorem exists_sign_toList_text (h : ¬ t.FourDigitYear) :
    ∃ sign cs, sign.isDigit = false ∧ t.text.toList = sign :: cs := by
  obtain ⟨sign, hsign, heq⟩ := yearText_of_not_fourDigitYear h
  rw [toList_text, heq, List.cons_append]
  exact ⟨sign, _, by rcases hsign with rfl | rfl <;> rfl, rfl⟩

theorem isCanonicalUtc_text_iff : isCanonicalUtc t.text.toList = true ↔ t.FourDigitYear := by
  refine ⟨fun hcanonical => by_contra fun h => ?_, isCanonicalUtc_text⟩
  obtain ⟨sign, cs, hsign, hcs⟩ := exists_sign_toList_text h
  have htemplate : "0000-00-00T00:00:00.000Z".toList =
      '0' :: "000-00-00T00:00:00.000Z".toList := by decide
  rw [isCanonicalUtc, hcs, htemplate] at hcanonical
  obtain ⟨digit, rest, heq, hdigit, -⟩ := fits_cons_iff.1 hcanonical
  obtain ⟨rfl, -⟩ := List.cons.inj heq
  rw [if_pos rfl, hsign] at hdigit
  cases hdigit

theorem rfc3339?_text_eq_none (h : ¬ t.FourDigitYear) : rfc3339? t.text.toList = none := by
  obtain ⟨sign, cs, hsign, hcs⟩ := exists_sign_toList_text h
  have hyear : exactDigits 4 (sign :: cs) = none := by
    rw [exactDigits, if_neg]
    simp [hsign]
  rw [hcs, rfc3339?, hyear]
  rfl

/-- The text of an instant is read again exactly if the year has four digits. -/
theorem ofString?_text_of_fourDigitYear (h : t.FourDigitYear) : ofString? t.text = some t.cut :=
  ofString?_of_rfc3339? (not_blank_text t) (rfc3339?_text h)

theorem ofString?_text_eq_none (h : ¬ t.FourDigitYear) : ofString? t.text = none := by
  have hz := zone_mem_toList_text t
  simp only [ofString?, Text.trim_eq_self (not_blank_text t), rfc3339?_text_eq_none h,
    plainDateTime?_eq_none hz, plainDate?_eq_none hz, Option.or_none]

end Instant

end ListQuery.Calendar

namespace ListQuery.Json

open Calendar

/-- **What a date is coerced to**: the text of an instant. The text is canonical, and is coerced to
itself, exactly if the year of the instant has four digits; if not, it is no date. Of numbers, those
in four digits are known by their bounds. -/
theorem toDate?_canonical {v d : Json} (h : v.toDate? = some d) :
    ∃ t text, v.toInstant? = some t ∧ d = .string text ∧
      (isCanonicalUtc text.toList = true ↔ t.FourDigitYear) ∧
      (d.toDate? = some d ↔ t.FourDigitYear) ∧ (¬ t.FourDigitYear → d.toDate? = none) ∧
      ∀ n, v = .ofInteger n →
        (t.FourDigitYear ↔ -62167219200000 ≤ n.val ∧ n.val ≤ 253402300799999) := by
  obtain ⟨t, ht, rfl⟩ := Option.map_eq_some_iff.1 h
  have hnone (hyear : ¬ t.FourDigitYear) : (Json.string t.text).toDate? = none := by
    simp only [toDate?, toInstant?, Instant.ofString?_text_eq_none hyear, Option.map_none]
  refine ⟨t, t.text, ht, rfl, Instant.isCanonicalUtc_text_iff, ?_, hnone, ?_⟩
  · refine ⟨fun hself => by_contra fun hyear => ?_, fun hyear => ?_⟩
    · rw [hnone hyear] at hself
      cases hself
    · simp only [toDate?, toInstant?, Instant.ofString?_text_of_fourDigitYear hyear,
        Option.map_some, Instant.cut_text]
  · rintro n rfl
    simp only [ofInteger, toInstant?] at ht
    split at ht
    · exact Instant.fourDigitYear_of_ofEpochMillis? ht
    · cases ht

/-- The first millisecond after the four-digit years is a date that cannot be read again. -/
theorem toDate?_after_four_digits :
    ∃ d, (ofInteger ⟨253402300800000, by decide, by decide⟩).toDate? = some d ∧
      d.toDate? = none := by
  have hdate : (ofInteger ⟨253402300800000, by decide, by decide⟩).toDate? =
      some (.string "+10000-01-01T00:00:00.000Z") := by decide +kernel
  obtain ⟨t, text, -, -, -, -, hnone, hbounds⟩ := toDate?_canonical hdate
  exact ⟨_, hdate, hnone fun hyear => absurd ((hbounds _ rfl).1 hyear).2 (by decide)⟩

/-- The date of that millisecond, and the date before it. -/
theorem year_10000_not_canonical :
    (ofInteger ⟨253402300799999, by decide, by decide⟩).toDate? =
      some (.string "9999-12-31T23:59:59.999Z") ∧
    (ofInteger ⟨253402300800000, by decide, by decide⟩).toDate? =
      some (.string "+10000-01-01T00:00:00.000Z") ∧
    isCanonicalUtc "+10000-01-01T00:00:00.000Z".toList = false ∧
    (Json.string "+10000-01-01T00:00:00.000Z").toDate? = none := by
  decide +kernel

end ListQuery.Json
