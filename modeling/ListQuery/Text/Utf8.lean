/-!
# Texts as bytes

A text as its UTF-8 bytes. Places in a text are counted in bytes here, and not every place is one
where a text can be cut: `cutBytes?` has a result exactly where a character ends
(`cutBytes?_eq_some_iff`). An ASCII character is one byte, its own code, and every other character
starts with a byte from 128 on (`exists_firstByte`), so ASCII characters can be looked for among the
bytes.
-/

namespace ListQuery.Text

/-- The UTF-8 bytes of a text. -/
def bytes (cs : List Char) : List UInt8 := cs.flatMap String.utf8EncodeChar

/-- The bytes of the ASCII digits. -/
def isDigitByte (b : UInt8) : Bool := 48 ≤ b.toNat && b.toNat ≤ 57

/-- The text before and behind its first `n` bytes; none inside of a character or past the end. -/
def cutBytes? : Nat → List Char → Option (List Char × List Char)
  | 0, cs => some ([], cs)
  | _ + 1, [] => none
  | n + 1, c :: cs =>
    if c.utf8Size ≤ n + 1 then
      (cutBytes? (n + 1 - c.utf8Size) cs).map fun parts => (c :: parts.1, parts.2)
    else none

@[simp] theorem bytes_nil : bytes [] = [] := rfl

@[simp] theorem bytes_cons (c : Char) (cs : List Char) :
    bytes (c :: cs) = String.utf8EncodeChar c ++ bytes cs := List.flatMap_cons

theorem length_bytes_cons (c : Char) (cs : List Char) :
    (bytes (c :: cs)).length = c.utf8Size + (bytes cs).length := by
  rw [bytes_cons, List.length_append, String.length_utf8EncodeChar]

theorem length_bytes_eq_zero_iff {cs : List Char} : (bytes cs).length = 0 ↔ cs = [] := by
  cases cs with
  | nil => simp
  | cons c cs =>
    have hpos := c.utf8Size_pos
    rw [length_bytes_cons]
    simp
    omega

/-! ### Cutting -/

theorem cutBytes?_append (front back : List Char) :
    cutBytes? (bytes front).length (front ++ back) = some (front, back) := by
  induction front with
  | nil => simp [cutBytes?]
  | cons c front ih =>
    have hpos := c.utf8Size_pos
    obtain ⟨n, hn⟩ := Nat.exists_eq_succ_of_ne_zero (n := c.utf8Size + (bytes front).length)
      (by omega)
    rw [List.cons_append, length_bytes_cons, hn, cutBytes?, if_pos (by omega),
      show n + 1 - c.utf8Size = (bytes front).length by omega, ih]
    rfl

theorem eq_append_of_cutBytes? {n : Nat} {cs front back : List Char}
    (h : cutBytes? n cs = some (front, back)) :
    cs = front ++ back ∧ (bytes front).length = n := by
  induction cs generalizing n front with
  | nil =>
    cases n with
    | zero =>
      obtain ⟨rfl, rfl⟩ := Prod.mk.inj (Option.some.inj h)
      exact ⟨rfl, rfl⟩
    | succ n => cases h
  | cons c cs ih =>
    cases n with
    | zero =>
      obtain ⟨rfl, rfl⟩ := Prod.mk.inj (Option.some.inj h)
      exact ⟨rfl, rfl⟩
    | succ n =>
      rw [cutBytes?] at h
      split at h
      case isTrue hle =>
        obtain ⟨⟨front', back'⟩, hcut, heq⟩ := Option.map_eq_some_iff.1 h
        obtain ⟨rfl, rfl⟩ := Prod.mk.inj heq
        obtain ⟨rfl, hlength⟩ := ih hcut
        refine ⟨rfl, ?_⟩
        rw [length_bytes_cons, hlength]
        omega
      case isFalse => cases h

/-- A text is cut where the bytes of its first characters end, and nowhere else. -/
theorem cutBytes?_eq_some_iff {n : Nat} {cs front back : List Char} :
    cutBytes? n cs = some (front, back) ↔ cs = front ++ back ∧ (bytes front).length = n := by
  constructor
  · exact eq_append_of_cutBytes?
  · rintro ⟨rfl, rfl⟩
    exact cutBytes?_append front back

/-! ### ASCII characters among the bytes -/

/-- The first byte of a character tells an ASCII character, which has no other byte, from the rest. -/
theorem exists_firstByte (c : Char) :
    ∃ b bs, String.utf8EncodeChar c = b :: bs ∧
      (c.toNat < 128 ∧ b.toNat = c.toNat ∧ bs = [] ∨ 128 ≤ c.toNat ∧ 128 ≤ b.toNat) := by
  have hval : c.val.toNat = c.toNat := rfl
  simp only [String.utf8EncodeChar, hval]
  rcases Nat.lt_or_ge c.toNat 128 with h | h
  · rw [if_pos (by omega)]
    refine ⟨_, _, rfl, .inl ⟨h, ?_, rfl⟩⟩
    rw [UInt8.toNat_ofNat', Nat.mod_eq_of_lt (by omega)]
  · rw [if_neg (by omega)]
    -- of two, three or four bytes the first one has its high bits set
    have hlead (n : Nat) (hn : 128 ≤ n ∧ n < 256) (bs : List UInt8) :
        ∃ b bs', UInt8.ofNat n :: bs = b :: bs' ∧
          (c.toNat < 128 ∧ b.toNat = c.toNat ∧ bs' = [] ∨ 128 ≤ c.toNat ∧ 128 ≤ b.toNat) := by
      refine ⟨_, _, rfl, .inr ⟨h, ?_⟩⟩
      rw [UInt8.toNat_ofNat', Nat.mod_eq_of_lt hn.2]
      exact hn.1
    split
    · exact hlead _ (by omega) _
    split
    · exact hlead _ (by omega) _
    · exact hlead _ (by omega) _

/-- A text starts with an ASCII character exactly if its bytes start with the code of it. -/
theorem head?_bytes_eq_iff {b : UInt8} {a : Char} (ha : a.toNat < 128) (hb : b.toNat = a.toNat)
    (cs : List Char) : (bytes cs).head? = some b ↔ cs.head? = some a := by
  cases cs with
  | nil => simp
  | cons c cs =>
    obtain ⟨b', bs, hbytes, hfirst⟩ := exists_firstByte c
    rw [bytes_cons, hbytes, List.cons_append, List.head?_cons, List.head?_cons, Option.some.injEq,
      Option.some.injEq, ← UInt8.toNat_inj, ← Char.toNat_inj, hb]
    omega

theorem isDigitByte_iff {b : UInt8} : isDigitByte b = true ↔ 48 ≤ b.toNat ∧ b.toNat ≤ 57 := by
  simp [isDigitByte]

/-- The digits in front of a text are the digits in front of its bytes. -/
theorem takeWhile_bytes (cs : List Char) :
    (bytes cs).takeWhile isDigitByte = bytes (cs.takeWhile Char.isDigit) := by
  induction cs with
  | nil => rfl
  | cons c cs ih =>
    obtain ⟨b, bs, hbytes, hfirst⟩ := exists_firstByte c
    have hdigit : c.isDigit = true ↔ 48 ≤ c.toNat ∧ c.toNat ≤ 57 := Char.isDigit_iff_toNat
    cases hc : c.isDigit with
    | true =>
      have hbounds := hdigit.1 hc
      obtain ⟨-, hb, rfl⟩ := hfirst.resolve_right (by omega)
      rw [List.takeWhile_cons_of_pos hc, bytes_cons, bytes_cons, hbytes, List.singleton_append,
        List.takeWhile_cons_of_pos (isDigitByte_iff.2 (by omega)), ih, List.singleton_append]
    | false =>
      have hb : ¬ isDigitByte b = true := fun hb => by
        have hbounds := isDigitByte_iff.1 hb
        obtain ⟨-, heq, -⟩ := hfirst.resolve_right (by omega)
        rw [hdigit.2 (by omega)] at hc
        cases hc
      rw [List.takeWhile_cons_of_neg (by simp [hc]), bytes_cons, hbytes, List.cons_append,
        List.takeWhile_cons_of_neg hb]
      rfl

end ListQuery.Text
