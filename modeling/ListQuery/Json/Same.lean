import ListQuery.Json.Basic
import Mathlib.Data.List.Forall2

/-!
# The same JSON

Two values are the same if they differ at most in the order of the members of their objects, at any
depth. Equal values are the same (`same_refl`), and what the same values hold in one place is the
same again: under a key (`Same.get?`), in an array (`same_array_iff`), and in an object with one
member (`same_entry_iff`).
-/

namespace ListQuery.Json

/-- Equal but for the order of the members of objects. -/
inductive Same : Json → Json → Prop where
  | null : Same .null .null
  | bool (b : Bool) : Same (.bool b) (.bool b)
  | number (n : JsonNumber) : Same (.number n) (.number n)
  | string (s : String) : Same (.string s) (.string s)
  | array {as bs : List Json} (length : as.length = bs.length)
    (items : ∀ (i : Nat) a b, as[i]? = some a → bs[i]? = some b → Same a b) :
    Same (.array as) (.array bs)
  | object {as bs : List (String × Json)} (length : as.length = bs.length)
    (keys : ∀ key, key ∈ Entries.keys as ↔ key ∈ Entries.keys bs)
    (values : ∀ key a b, Entries.get? key as = some a → Entries.get? key bs = some b → Same a b) :
    Same (.object as) (.object bs)

mutual

theorem same_refl : ∀ a : Json, Same a a
  | .null => .null
  | .bool b => .bool b
  | .number n => .number n
  | .string s => .string s
  | .array items => .array rfl fun i a b ha hb => by
    obtain rfl : a = b := Option.some.inj (ha.symm.trans hb)
    exact same_refl_items items a (List.mem_of_getElem? ha)
  | .object members => .object rfl (fun _ => Iff.rfl) fun key a b ha hb => by
    obtain rfl : a = b := Option.some.inj (ha.symm.trans hb)
    exact same_refl_members members (key, a) (Entries.mem_of_get? ha)

theorem same_refl_items : ∀ items : List Json, ∀ a ∈ items, Same a a
  | [] => nofun
  | item :: rest => List.forall_mem_cons.2 ⟨same_refl item, same_refl_items rest⟩

theorem same_refl_members : ∀ members : List (String × Json), ∀ m ∈ members, Same m.2 m.2
  | [] => nofun
  | (_, value) :: rest => List.forall_mem_cons.2 ⟨same_refl value, same_refl_members rest⟩

end

theorem Same.symm {a b : Json} (h : Same a b) : Same b a := by
  induction h with
  | null => exact .null
  | bool b => exact .bool b
  | number n => exact .number n
  | string s => exact .string s
  | array length _ ih => exact .array length.symm fun i a b ha hb => ih i b a hb ha
  | object length keys _ ih =>
    exact .object length.symm (fun key => (keys key).symm) fun key a b ha hb => ih key b a hb ha

/-- What the same values hold under one key is the same. -/
theorem Same.get? {a b x y : Json} (h : Same a b) (key : String) (ha : a.get? key = some x)
    (hb : b.get? key = some y) : Same x y := by
  cases h with
  | object _ _ values => exact values key x y ha hb
  | null | bool | number | string | array => nomatch ha

/-- What is the same as an object with one member is an object with this member alone. -/
theorem Same.exists_entry {key : String} {a b : Json} (h : Same (.entry key a) b) :
    ∃ b', b = .entry key b' ∧ Same a b' := by
  cases h with
  | @object _ bs length keys values =>
    match bs, length with
    | [(k, b')], _ =>
      obtain rfl : key = k := by simpa using keys key
      exact ⟨b', rfl, values key a b' (by simp [Entries.get?]) (by simp [Entries.get?])⟩

theorem same_entry_iff {k l : String} {a b : Json} :
    Same (.entry k a) (.entry l b) ↔ k = l ∧ Same a b := by
  constructor
  · intro h
    obtain ⟨b', he, hb⟩ := h.exists_entry
    simp only [entry, object.injEq, List.cons.injEq, Prod.mk.injEq, and_true] at he
    obtain ⟨rfl, rfl⟩ := he
    exact ⟨rfl, hb⟩
  · rintro ⟨rfl, h⟩
    refine .object rfl (fun _ => Iff.rfl) fun key x y hx hy => ?_
    simp only [Entries.get?, Option.ite_none_right_eq_some, Option.some.injEq] at hx hy
    obtain ⟨rfl, rfl⟩ := hx
    obtain ⟨-, rfl⟩ := hy
    exact h

theorem same_array_iff {as bs : List Json} :
    Same (.array as) (.array bs) ↔ List.Forall₂ Same as bs := by
  rw [List.forall₂_iff_get]
  constructor
  · intro h
    cases h with
    | array length items =>
      exact ⟨length, fun i ha hb => items i _ _ (List.getElem?_eq_getElem ha)
        (List.getElem?_eq_getElem hb)⟩
  · rintro ⟨length, items⟩
    refine .array length fun i a b ha hb => ?_
    obtain ⟨hi, rfl⟩ := List.getElem?_eq_some_iff.1 ha
    obtain ⟨hj, rfl⟩ := List.getElem?_eq_some_iff.1 hb
    exact items i hi hj

end ListQuery.Json
