import ListQuery.Calendar.Reader
import ListQuery.Proofs.Digits

/-!
# Dates and their texts

Instants with a year of four digits have texts of one form, in which every number has its own width.
Two things follow. Such a text is read back to the instant that it shows, which is the instant
without what is below a millisecond (`rfc3339?_text`). And the texts sort like the instants that
they show, leap seconds included (`text_lt_text_iff`).

The strict form of a date, in UTC and with milliseconds or none, leads to instants of this kind, and
nothing of them is lost in their texts (`of_isStrictUtc`).
-/

namespace ListQuery.Calendar

open Nat (ofDigitChars)

/-! ### Numbers of a fixed width -/

namespace Instant

variable {w n : Nat}

theorem isDigit_of_mem_padded {c : Char} (h : c ∈ padded w n) : c.isDigit = true := by
  rw [padded, List.mem_append] at h
  rcases h with h | h
  · rw [List.eq_of_mem_replicate h]
    rfl
  · exact isDigit_of_mem_digits h

theorem length_padded (hw : 0 < w) (h : n < 10 ^ w) : (padded w n).length = w := by
  have hlength := (Nat.length_toDigits_le_iff (by decide) hw).2 h
  rw [padded, List.length_append, List.length_replicate]
  omega

theorem digitsValue_padded : digitsValue (padded w n) = n := by
  rw [digitsValue, padded, Nat.ofDigitChars_append, Nat.ofDigitChars_replicate_zero, Nat.mul_zero,
    Nat.ofDigitChars_ten_toDigits]

/-- Numbers of one width are in the order of their texts, and before what follows them. -/
theorem padded_append_lt_iff {m : Nat} (hw : 0 < w) (hm : m < 10 ^ w) (hn : n < 10 ^ w)
    (xs ys : List Char) :
    padded w m ++ xs < padded w n ++ ys ↔ m < n ∨ m = n ∧ xs < ys := by
  have hlength : (padded w m).length = (padded w n).length := by
    rw [length_padded hw hm, length_padded hw hn]
  have horder := ofDigitChars_lt_iff (fun _ => isDigit_of_mem_padded)
    (fun _ => isDigit_of_mem_padded) hlength 0 0
  rw [← digitsValue, ← digitsValue, digitsValue_padded, digitsValue_padded] at horder
  have heq : padded w m = padded w n ↔ m = n :=
    ⟨fun h => by rw [← digitsValue_padded (w := w) (n := m), h, digitsValue_padded],
      fun h => by rw [h]⟩
  rw [append_lt_append_iff hlength, heq, horder]
  simp

end Instant

open Instant

theorem exactDigits_padded {w n : Nat} (hw : 0 < w) (h : n < 10 ^ w) (rest : List Char) :
    exactDigits w (padded w n ++ rest) = some (n, rest) := by
  have hlength := length_padded hw h
  have hall : (padded w n).all Char.isDigit = true :=
    List.all_eq_true.2 fun _ => isDigit_of_mem_padded
  rw [exactDigits, List.take_left' hlength, List.drop_left' hlength, if_pos ⟨hlength, hall⟩,
    digitsValue_padded]

theorem exactDigits_eq_some {w n : Nat} {cs rest : List Char}
    (h : exactDigits w cs = some (n, rest)) : n < 10 ^ w ∧ rest = cs.drop w := by
  rw [exactDigits] at h
  split at h
  case isTrue hdigits =>
    obtain ⟨hlength, hall⟩ := hdigits
    obtain ⟨rfl, rfl⟩ := Prod.mk.inj (Option.some.inj h)
    have hlt := ofDigitChars_lt (List.all_eq_true.1 hall)
    rw [hlength] at hlt
    exact ⟨hlt, rfl⟩
  case isFalse => cases h

/-- Three digits of a fraction are milliseconds. -/
theorem fraction_millis {ds : List Char} (hdigits : ∀ c ∈ ds, c.isDigit = true)
    (hlength : ds.length = 3) :
    fraction ('.' :: (ds ++ ['Z'])) = some (digitsValue ds * 1000000, ['Z']) := by
  have htake : (ds ++ ['Z']).takeWhile Char.isDigit = ds := by
    rw [List.takeWhile_append_of_pos hdigits]
    simp
  have hdrop : (ds ++ ['Z']).dropWhile Char.isDigit = ['Z'] := by
    rw [List.dropWhile_append_of_pos hdigits]
    rfl
  have hne : ds.isEmpty = false :=
    List.isEmpty_eq_false_iff.2 (List.ne_nil_of_length_eq_add_one hlength)
  have hkept : ds.take 9 = ds := List.take_of_length_le (by omega)
  simp only [fraction, htake, hdrop, hne, hkept, hlength]
  rfl

theorem fraction_padded {n : Nat} (h : n < 1000) :
    fraction ('.' :: (padded 3 n ++ ['Z'])) = some (n * 1000000, ['Z']) := by
  rw [fraction_millis (fun _ => isDigit_of_mem_padded) (length_padded (by decide) h),
    digitsValue_padded]

/-! ### The text of an instant -/

namespace Instant

/-- The year has four digits and no sign. -/
def FourDigitYear (t : Instant) : Prop := 0 ≤ t.date.year ∧ t.date.year ≤ 9999

/-- The instant without what is below a millisecond. -/
def cut (t : Instant) : Instant :=
  { t with
    nano := t.nano / 1000000 * 1000000
    nano_lt := Nat.lt_of_le_of_lt (Nat.div_mul_le_self _ _) t.nano_lt }

variable {t : Instant}

theorem yearText_of_fourDigitYear (h : t.FourDigitYear) :
    yearText t.date.year = padded 4 t.date.year.natAbs := by
  rw [yearText, if_neg (by have := h.1; omega), if_neg (by have := h.2; omega)]

theorem toList_text (t : Instant) :
    t.text.toList =
      yearText t.date.year ++ '-' :: (padded 2 t.date.month ++ '-' :: (padded 2 t.date.day ++
        'T' :: (padded 2 (t.minute / 60) ++ ':' :: (padded 2 (t.minute % 60) ++
          ':' :: (padded 2 t.second ++ '.' :: (padded 3 (t.nano / 1000000) ++ ['Z'])))))) := by
  simp only [text, String.toList_ofList, List.append_assoc, List.cons_append]

theorem cut_text (t : Instant) : t.cut.text = t.text := by
  simp only [text, cut, Nat.mul_div_cancel _ (show 0 < 1000000 by decide)]

/-- Every number in the text of an instant fits its width. -/
theorem parts_lt (h : t.FourDigitYear) :
    t.date.year.natAbs < 10 ^ 4 ∧ t.date.month < 10 ^ 2 ∧ t.date.day < 10 ^ 2 ∧
      t.minute / 60 < 10 ^ 2 ∧ t.minute % 60 < 10 ^ 2 ∧ t.second < 10 ^ 2 ∧
      t.nano / 1000000 < 10 ^ 3 := by
  obtain ⟨hlo, hhi⟩ := h
  have hmonth := t.date.month_le
  have hday := Nat.le_trans t.date.day_le (daysIn_le _ _)
  have hminute := t.minute_lt
  have hsecond := t.second_le
  have hnano := t.nano_lt
  omega

/-! ### Reading the text -/

theorem rfc3339?_text (h : t.FourDigitYear) : rfc3339? t.text.toList = some t.cut := by
  obtain ⟨hyear, hmonth, hday, hhour, hminute, hsecond, hmillis⟩ := parts_lt h
  have hdate : Date.ofParts? (t.date.year.natAbs : Nat) t.date.month t.date.day = some t.date := by
    obtain ⟨hlo, hhi⟩ := h
    rw [show ((t.date.year.natAbs : Nat) : Int) = t.date.year by omega]
    exact Date.ofParts?_self (by rw [Date.yearInRange]; simp; omega)
  have htwo {n : Nat} (hn : n < 10 ^ 2) (rest : List Char) :
      exactDigits 2 (padded 2 n ++ rest) = some (n, rest) := exactDigits_padded (by decide) hn rest
  rw [toList_text, yearText_of_fourDigitYear h]
  refine Option.bind_eq_some_iff.2 ⟨_, exactDigits_padded (by decide) hyear _, ?_⟩
  refine Option.bind_eq_some_iff.2 ⟨_, expect_cons _ _, ?_⟩
  refine Option.bind_eq_some_iff.2 ⟨_, htwo hmonth _, ?_⟩
  refine Option.bind_eq_some_iff.2 ⟨_, expect_cons _ _, ?_⟩
  refine Option.bind_eq_some_iff.2 ⟨_, htwo hday _, ?_⟩
  refine Option.bind_eq_some_iff.2 ⟨_, rfl, ?_⟩
  refine Option.bind_eq_some_iff.2 ⟨_, htwo hhour _, ?_⟩
  refine Option.bind_eq_some_iff.2 ⟨_, expect_cons _ _, ?_⟩
  refine Option.bind_eq_some_iff.2 ⟨_, htwo hminute _, ?_⟩
  refine Option.bind_eq_some_iff.2 ⟨_, expect_cons _ _, ?_⟩
  refine Option.bind_eq_some_iff.2 ⟨_, htwo hsecond _, ?_⟩
  refine Option.bind_eq_some_iff.2 ⟨_, fraction_padded hmillis, ?_⟩
  refine Option.bind_eq_some_iff.2 ⟨_, rfl, ?_⟩
  refine Option.bind_eq_some_iff.2 ⟨_, rfl, ?_⟩
  refine Option.bind_eq_some_iff.2 ⟨_, hdate, ?_⟩
  refine Option.bind_eq_some_iff.2 ⟨_, t.cut.ofParts?_self, ?_⟩
  exact congrArg some (minusMinutes_zero _ _)

/-! ### The order of texts -/

/-- The texts of instants are in the order of the instants that they show. -/
theorem text_lt_text_iff {a b : Instant} (ha : a.FourDigitYear) (hb : b.FourDigitYear) :
    a.text < b.text ↔ b.cut.isAfter a.cut = true := by
  obtain ⟨hyear, hmonth, hday, hhour, hminute, hsecond, hmillis⟩ := parts_lt ha
  obtain ⟨hyear', hmonth', hday', hhour', hminute', hsecond', hmillis'⟩ := parts_lt hb
  have htwo {m n : Nat} (hm : m < 10 ^ 2) (hn : n < 10 ^ 2) (xs ys : List Char) :
      padded 2 m ++ xs < padded 2 n ++ ys ↔ m < n ∨ m = n ∧ xs < ys :=
    padded_append_lt_iff (by decide) hm hn xs ys
  rw [String.lt_iff, toList_text, toList_text, yearText_of_fourDigitYear ha,
    yearText_of_fourDigitYear hb, padded_append_lt_iff (by decide) hyear hyear',
    List.cons_lt_cons_self, htwo hmonth hmonth', List.cons_lt_cons_self, htwo hday hday',
    List.cons_lt_cons_self, htwo hhour hhour', List.cons_lt_cons_self, htwo hminute hminute',
    List.cons_lt_cons_self, htwo hsecond hsecond', List.cons_lt_cons_self,
    padded_append_lt_iff (by decide) hmillis hmillis']
  simp only [isAfter, Date.isBefore, Bool.or_eq_true, Bool.and_eq_true, decide_eq_true_eq,
    beq_iff_eq, Date.ext_iff, List.lt_irrefl, and_false, or_false]
  -- the minute of the day is compared as hour and minute, and years without a sign
  simp only [cut]
  obtain ⟨hlo, hhi⟩ := ha
  obtain ⟨hlo', hhi'⟩ := hb
  omega

end Instant

/-! ### Templates -/

/-- A template without blanks admits none. -/
theorem not_blank_of_fits {us cs : List Char} (h : fits us cs = true)
    (hus : us.any Text.isBlank = false) : ∀ c ∈ cs, Text.isBlank c = false := by
  induction us generalizing cs with
  | nil =>
    cases cs with
    | nil => exact fun _ hc => nomatch hc
    | cons c cs => cases h
  | cons u us ih =>
    obtain ⟨c, rest, rfl, hc, hrest⟩ := fits_cons_iff.1 h
    rw [List.any_cons, Bool.or_eq_false_iff] at hus
    refine List.forall_mem_cons.2 ⟨?_, ih hrest hus.2⟩
    split at hc
    · exact Text.isBlank_of_isDigit hc
    · exact hc.symm ▸ hus.1

theorem fits_zeros {cs : List Char} (h : ∀ c ∈ cs, c.isDigit = true) :
    fits (List.replicate cs.length '0') cs = true := by
  induction cs with
  | nil => rfl
  | cons c cs ih =>
    obtain ⟨hc, hcs⟩ := List.forall_mem_cons.1 h
    rw [List.length_cons, List.replicate_succ, fits, ih hcs, if_pos rfl, hc, Bool.and_self]

theorem fits_padded {w n : Nat} (hw : 0 < w) (h : n < 10 ^ w) :
    fits (List.replicate w '0') (padded w n) = true := by
  have hzeros := fits_zeros fun _ (hc : _ ∈ padded w n) => isDigit_of_mem_padded hc
  rwa [length_padded hw h] at hzeros

/-- The form `YYYY-MM-DDTHH:MM:SS.mmmZ`. -/
def isCanonicalUtc (cs : List Char) : Bool := fits "0000-00-00T00:00:00.000Z".toList cs

theorem isCanonicalUtc_text {t : Instant} (h : t.FourDigitYear) :
    isCanonicalUtc t.text.toList = true := by
  obtain ⟨hyear, hmonth, hday, hhour, hminute, hsecond, hmillis⟩ := parts_lt h
  have htemplate : "0000-00-00T00:00:00.000Z".toList =
      List.replicate 4 '0' ++ (['-'] ++ (List.replicate 2 '0' ++ (['-'] ++ (List.replicate 2 '0' ++
        (['T'] ++ (List.replicate 2 '0' ++ ([':'] ++ (List.replicate 2 '0' ++ ([':'] ++
          (List.replicate 2 '0' ++ (['.'] ++ (List.replicate 3 '0' ++ ['Z'])))))))))))) := by
    decide
  have htwo {n : Nat} (hn : n < 10 ^ 2) (us cs : List Char) :
      fits (List.replicate 2 '0' ++ us) (padded 2 n ++ cs) = fits us cs :=
    fits_append (fits_padded (by decide) hn) us cs
  have hmark (u : Char) (hu : u ≠ '0') (us cs : List Char) :
      fits ([u] ++ us) (u :: cs) = fits us cs := by
    rw [List.singleton_append, fits, if_neg hu, beq_self_eq_true, Bool.true_and]
  rw [isCanonicalUtc, htemplate, toList_text, yearText_of_fourDigitYear h,
    fits_append (fits_padded (by decide) hyear), hmark _ (by decide), htwo hmonth,
    hmark _ (by decide), htwo hday, hmark _ (by decide), htwo hhour, hmark _ (by decide),
    htwo hminute, hmark _ (by decide), htwo hsecond, hmark _ (by decide),
    fits_append (fits_padded (by decide) hmillis)]
  rfl

theorem not_blank_of_isCanonicalUtc {cs : List Char} (h : isCanonicalUtc cs = true) :
    ∀ c ∈ cs, Text.isBlank c = false :=
  not_blank_of_fits h (by decide)

theorem not_blank_of_isStrictUtc {cs : List Char} (h : isStrictUtc cs = true) :
    ∀ c ∈ cs, Text.isBlank c = false := by
  rw [isStrictUtc, Bool.or_eq_true] at h
  rcases h with h | h
  · exact not_blank_of_fits h (by decide)
  · exact not_blank_of_isCanonicalUtc h

/-- Without blanks around it, a date with an offset is read as such. -/
theorem Instant.ofString?_of_rfc3339? {text : String} {t : Instant}
    (hblank : ∀ c ∈ text.toList, Text.isBlank c = false) (h : rfc3339? text.toList = some t) :
    Instant.ofString? text = some t := by
  simp only [Instant.ofString?, Text.trim_eq_self hblank, h, Option.some_or]

/-! ### The strict form -/

/-- What an offset and a fraction are read from stands behind the first nineteen characters. -/
theorem rfc3339?_eq_some {cs : List Char} {t : Instant} (h : rfc3339? cs = some t) :
    ∃ nano zs, ∃ zone : Offset, ∃ clock : Instant,
      fraction (cs.drop 19) = some (nano, zs) ∧ offset zs = some (zone, []) ∧
      clock.FourDigitYear ∧ clock.nano = nano ∧ t = clock.minusMinutes zone.val zone.property := by
  obtain ⟨⟨year, c₁⟩, hyear, h⟩ := Option.bind_eq_some_iff.1 h
  obtain ⟨c₂, h₂, h⟩ := Option.bind_eq_some_iff.1 h
  obtain ⟨⟨month, c₃⟩, h₃, h⟩ := Option.bind_eq_some_iff.1 h
  obtain ⟨c₄, h₄, h⟩ := Option.bind_eq_some_iff.1 h
  obtain ⟨⟨day, c₅⟩, h₅, h⟩ := Option.bind_eq_some_iff.1 h
  obtain ⟨c₆, h₆, h⟩ := Option.bind_eq_some_iff.1 h
  obtain ⟨⟨hour, c₇⟩, h₇, h⟩ := Option.bind_eq_some_iff.1 h
  obtain ⟨c₈, h₈, h⟩ := Option.bind_eq_some_iff.1 h
  obtain ⟨⟨minute, c₉⟩, h₉, h⟩ := Option.bind_eq_some_iff.1 h
  obtain ⟨c₁₀, h₁₀, h⟩ := Option.bind_eq_some_iff.1 h
  obtain ⟨⟨second, c₁₁⟩, h₁₁, h⟩ := Option.bind_eq_some_iff.1 h
  obtain ⟨⟨nano, zs⟩, hfraction, h⟩ := Option.bind_eq_some_iff.1 h
  obtain ⟨⟨zone, c₁₂⟩, hzone, h⟩ := Option.bind_eq_some_iff.1 h
  obtain ⟨_, hend, h⟩ := Option.bind_eq_some_iff.1 h
  obtain ⟨date, hdate, h⟩ := Option.bind_eq_some_iff.1 h
  obtain ⟨clock, hclock, h⟩ := Option.bind_eq_some_iff.1 h
  obtain rfl := Option.some.inj h
  obtain rfl := atEnd_eq_some hend
  obtain ⟨hyear, rfl⟩ := exactDigits_eq_some hyear
  obtain rfl := expect_eq_some h₂
  obtain ⟨-, rfl⟩ := exactDigits_eq_some h₃
  obtain rfl := expect_eq_some h₄
  obtain ⟨-, rfl⟩ := exactDigits_eq_some h₅
  obtain rfl := dateTimeSeparator_eq_some h₆
  obtain ⟨-, rfl⟩ := exactDigits_eq_some h₇
  obtain rfl := expect_eq_some h₈
  obtain ⟨-, rfl⟩ := exactDigits_eq_some h₉
  obtain rfl := expect_eq_some h₁₀
  obtain ⟨-, rfl⟩ := exactDigits_eq_some h₁₁
  simp only [List.drop_drop, Nat.reduceAdd] at hfraction
  obtain ⟨hclockDate, hclockNano⟩ := ofParts?_eq_some hclock
  have hdateYear := Date.year_of_ofParts? hdate
  refine ⟨nano, zs, zone, clock, hfraction, hzone, ?_, hclockNano, rfl⟩
  rw [FourDigitYear, hclockDate, hdateYear]
  omega

/-- Behind the seconds of the strict form stand milliseconds, or nothing, and UTC. -/
theorem tail_of_isStrictUtc {cs zs : List Char} {nano : Nat} {zone : Offset}
    (hstrict : isStrictUtc cs = true) (hfraction : fraction (cs.drop 19) = some (nano, zs))
    (hzone : offset zs = some (zone, [])) :
    zone.val = 0 ∧ ∃ millis, nano = millis * 1000000 := by
  rw [isStrictUtc, Bool.or_eq_true] at hstrict
  rcases hstrict with hfits | hfits
  · obtain ⟨z, rest, hcs, hz, hrest⟩ := fits_cons_iff.1 (fits_drop hfits 19)
    obtain rfl : z = 'Z' := hz
    obtain rfl : rest = [] := fits_nil_iff.1 hrest
    rw [hcs] at hfraction
    obtain ⟨rfl, rfl⟩ := Prod.mk.inj (Option.some.inj hfraction)
    obtain ⟨rfl, -⟩ := Prod.mk.inj (Option.some.inj hzone)
    exact ⟨rfl, 0, rfl⟩
  · obtain ⟨point, rest, hcs, hpoint, hrest⟩ := fits_cons_iff.1 (fits_drop hfits 19)
    obtain ⟨a, rest, rfl, ha, hrest⟩ := fits_cons_iff.1 hrest
    obtain ⟨b, rest, rfl, hb, hrest⟩ := fits_cons_iff.1 hrest
    obtain ⟨c, rest, rfl, hc, hrest⟩ := fits_cons_iff.1 hrest
    obtain ⟨z, rest, rfl, hz, hrest⟩ := fits_cons_iff.1 hrest
    obtain rfl : point = '.' := hpoint
    obtain rfl : z = 'Z' := hz
    obtain rfl : rest = [] := fits_nil_iff.1 hrest
    have hdigits : ∀ d ∈ [a, b, c], d.isDigit = true := by simpa using ⟨ha, hb, hc⟩
    have hmillis := fraction_millis hdigits rfl
    rw [hcs] at hfraction
    obtain ⟨rfl, rfl⟩ := Prod.mk.inj (Option.some.inj (hfraction.symm.trans hmillis))
    obtain ⟨rfl, -⟩ := Prod.mk.inj (Option.some.inj hzone)
    exact ⟨rfl, _, rfl⟩

/-- A text in the strict form gives an instant that its canonical text shows completely. -/
theorem of_isStrictUtc {cs : List Char} {t : Instant} (hstrict : isStrictUtc cs = true)
    (h : rfc3339? cs = some t) : t.FourDigitYear ∧ t.cut = t := by
  obtain ⟨nano, zs, zone, clock, hfraction, hzone, hyear, hnano, rfl⟩ := rfc3339?_eq_some h
  obtain ⟨hzero, millis, rfl⟩ := tail_of_isStrictUtc hstrict hfraction hzone
  obtain ⟨zone, hzone'⟩ := zone
  obtain rfl : zone = 0 := hzero
  rw [minusMinutes_zero]
  refine ⟨hyear, ?_⟩
  ext <;> simp [cut, hnano]

end ListQuery.Calendar
