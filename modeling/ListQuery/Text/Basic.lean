/-!
# Characters, blanks and signs

What the readers of numbers, dates and page parameters share: sets of code points, the blanks around
a text, and the sign in front of a number.

A set of code points is written as the increasing list of the points where membership changes: the
first run starts at the first entry and ends before the second, and so on. `contains` counts the
changes up to a character, and an odd count means inside.

Blanks are the characters with the Unicode property White_Space. Trimming removes them at both ends
of a text and nowhere else: a text is its trimmed form with blanks around it (`exists_append_trim`),
and blanks around a text that has none at its own ends are what trimming takes off
(`trim_append_of_ends`).
-/

namespace ListQuery.Text

/-! ### Sets of characters -/

/-- A set of code points, as the increasing list of the points where membership changes. -/
structure CharSet where
  changes : List Nat

namespace CharSet

/-- A character is in the set iff the number of changes at or before it is odd. -/
def contains (s : CharSet) (c : Char) : Bool :=
  (s.changes.takeWhile (· ≤ c.toNat)).length % 2 == 1

end CharSet

/-! ### Blanks -/

/-- The property White_Space. -/
def blanks : CharSet := ⟨
  [0x9, 0xe, 0x20, 0x21, 0x85, 0x86, 0xa0, 0xa1, 0x1680, 0x1681, 0x2000, 0x200b, 0x2028, 0x202a,
   0x202f, 0x2030, 0x205f, 0x2060, 0x3000, 0x3001]⟩

/-- Characters that trimming removes. -/
def isBlank (c : Char) : Bool := blanks.contains c

/-- The text without its leading blanks. -/
def trimStart (cs : List Char) : List Char := cs.dropWhile isBlank

/-- The text without its trailing blanks. -/
def trimEnd (cs : List Char) : List Char := (cs.reverse.dropWhile isBlank).reverse

/-- The text without leading and trailing blanks. -/
def trim (cs : List Char) : List Char := trimEnd (trimStart cs)

/-! ### What trimming leaves -/

/-- Blanks in front are removed. -/
theorem trimStart_append {before : List Char} (h : ∀ c ∈ before, isBlank c = true)
    (cs : List Char) : trimStart (before ++ cs) = trimStart cs :=
  List.dropWhile_append_of_pos h

/-- A text that starts with no blank is not touched at its front. -/
theorem trimStart_eq_self {cs : List Char} (h : ∀ c ∈ cs.head?, isBlank c = false) :
    trimStart cs = cs := by
  cases cs with
  | nil => rfl
  | cons c cs =>
    have hc : ¬ isBlank c = true := by
      rw [h c rfl]
      decide
    exact List.dropWhile_cons_of_neg hc

/-- The end of a text is trimmed like the front of its reverse. -/
theorem trimEnd_eq (cs : List Char) : trimEnd cs = (trimStart cs.reverse).reverse := rfl

/-- The blanks around a text are removed, if it has none at its own ends. -/
theorem trim_append_of_ends {before cs after : List Char}
    (hbefore : ∀ c ∈ before, isBlank c = true) (hhead : ∀ c ∈ cs.head?, isBlank c = false)
    (hlast : ∀ c ∈ cs.getLast?, isBlank c = false) (hafter : ∀ c ∈ after, isBlank c = true) :
    trim (before ++ (cs ++ after)) = cs := by
  have hend : trimEnd (cs ++ after) = cs := by
    rw [trimEnd_eq, List.reverse_append,
      trimStart_append fun c hc => hafter c (List.mem_reverse.1 hc),
      trimStart_eq_self (by rwa [List.head?_reverse]), List.reverse_reverse]
  rw [trim, trimStart_append hbefore]
  cases cs with
  | nil =>
    have hnone : trimStart (after ++ []) = [] := trimStart_append hafter []
    rw [List.append_nil] at hnone
    rw [List.nil_append, hnone]
    rfl
  | cons c cs =>
    have hfront : ∀ c' ∈ (c :: cs ++ after).head?, isBlank c' = false := hhead
    rw [trimStart_eq_self hfront, hend]

/-- What is removed in front are blanks, and all of them. -/
theorem exists_append_trimStart (cs : List Char) :
    ∃ before, cs = before ++ trimStart cs ∧ (∀ c ∈ before, isBlank c = true) ∧
      ∀ c ∈ (trimStart cs).head?, isBlank c = false := by
  refine ⟨cs.takeWhile isBlank, List.takeWhile_append_dropWhile.symm,
    List.all_eq_true.1 List.all_takeWhile, ?_⟩
  intro c hc
  have hnot := List.head?_dropWhile_not isBlank cs
  rw [trimStart, Option.mem_def] at hc
  rwa [hc] at hnot

/-- What is removed at the end are blanks, and all of them. -/
theorem exists_append_trimEnd (cs : List Char) :
    ∃ after, cs = trimEnd cs ++ after ∧ (∀ c ∈ after, isBlank c = true) ∧
      ∀ c ∈ (trimEnd cs).getLast?, isBlank c = false := by
  obtain ⟨before, hcs, hbefore, hhead⟩ := exists_append_trimStart cs.reverse
  refine ⟨before.reverse, ?_, fun c hc => hbefore c (List.mem_reverse.1 hc), fun c hc => ?_⟩
  · rw [trimEnd_eq, ← List.reverse_append, ← hcs, List.reverse_reverse]
  · rw [trimEnd_eq, List.getLast?_reverse] at hc
    exact hhead c hc

/-- What trimming removes are blanks around the text, and all of them. -/
theorem exists_append_trim (cs : List Char) :
    ∃ before after, cs = before ++ (trim cs ++ after) ∧
      (∀ c ∈ before, isBlank c = true) ∧ (∀ c ∈ after, isBlank c = true) ∧
      (∀ c ∈ (trim cs).head?, isBlank c = false) ∧
      ∀ c ∈ (trim cs).getLast?, isBlank c = false := by
  obtain ⟨before, hfront, hbefore, hhead⟩ := exists_append_trimStart cs
  obtain ⟨after, hend, hafter, hlast⟩ := exists_append_trimEnd (trimStart cs)
  refine ⟨before, after, ?_, hbefore, hafter, fun c hc => ?_, hlast⟩
  · rwa [trim, ← hend]
  · -- a character that starts the trimmed text starts the text that is trimmed in front only
    refine hhead c ?_
    rw [hend, Option.mem_def, List.head?_append]
    rw [trim, Option.mem_def] at hc
    rw [hc]
    rfl

/-- Of a text without blanks in it, the blanks around it are removed. -/
theorem trim_append {before cs after : List Char} (hbefore : ∀ c ∈ before, isBlank c = true)
    (hcs : ∀ c ∈ cs, isBlank c = false) (hafter : ∀ c ∈ after, isBlank c = true) :
    trim (before ++ (cs ++ after)) = cs :=
  trim_append_of_ends hbefore (fun c hc => hcs c (List.mem_of_head? hc))
    (fun c hc => hcs c (List.mem_of_getLast? hc)) hafter

/-- A text without blanks is left as it is. -/
theorem trim_eq_self {cs : List Char} (h : ∀ c ∈ cs, isBlank c = false) : trim cs = cs := by
  have htrim := @trim_append [] cs [] (fun _ hc => nomatch hc) h (fun _ hc => nomatch hc)
  rwa [List.nil_append, List.append_nil] at htrim

/-! ### Signs -/

/-- Whether a minus sign stands in front, and what follows the sign, if there is one. -/
def splitSign : List Char → Bool × List Char
  | '-' :: cs => (true, cs)
  | '+' :: cs => (false, cs)
  | cs => (false, cs)

/-- A text that starts with neither sign has none. -/
theorem splitSign_of_head {cs : List Char} (h : ∀ c ∈ cs.head?, c ≠ '-' ∧ c ≠ '+') :
    splitSign cs = (false, cs) := by
  rw [splitSign.eq_def]
  split
  case h_1 => exact absurd rfl (h '-' rfl).1
  case h_2 => exact absurd rfl (h '+' rfl).2
  case h_3 => rfl

end ListQuery.Text
