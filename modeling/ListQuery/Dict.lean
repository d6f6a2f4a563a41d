/-!
# Dictionaries in insertion order

A `Dict α` maps strings to values of type `α` and remembers the order in which its keys first
came. Inserting under a known key keeps the key's place and replaces its value. That no key occurs
twice is part of the type. `get?_insert` and `keys_insert` say what an insertion does to the two
views of a dictionary, the look-up and the list of keys.
-/

namespace ListQuery

/-- Pairs of key and value, searched from the front. -/
abbrev Entries (α : Type) := List (String × α)

namespace Entries

variable {α : Type}

/-- The first value under `key`. -/
def get? (key : String) : Entries α → Option α
  | [] => none
  | (k, v) :: rest => if k = key then some v else get? key rest

/-- Replace the first value under `key`, or add the pair at the end. -/
def insert (key : String) (value : α) : Entries α → Entries α
  | [] => [(key, value)]
  | (k, v) :: rest => if k = key then (k, value) :: rest else (k, v) :: insert key value rest

/-- The keys in order. -/
def keys (entries : Entries α) : List String := entries.map Prod.fst

@[simp] theorem keys_nil : keys ([] : Entries α) = [] := rfl

@[simp] theorem keys_cons (e : String × α) (rest : Entries α) :
    keys (e :: rest) = e.1 :: keys rest := rfl

theorem keys_insert (key : String) (value : α) (entries : Entries α) :
    keys (insert key value entries) =
      if key ∈ keys entries then keys entries else keys entries ++ [key] := by
  induction entries with
  | nil => simp [insert]
  | cons e rest ih =>
    obtain ⟨k, v⟩ := e
    by_cases h : k = key
    · simp [insert, h]
    · have h' : ¬ key = k := fun e => h e.symm
      simp only [insert, if_neg h, keys_cons, ih, List.mem_cons, h', false_or]
      split <;> simp

theorem insert_of_notMem {key : String} (value : α) {entries : Entries α}
    (h : key ∉ keys entries) : insert key value entries = entries ++ [(key, value)] := by
  induction entries with
  | nil => rfl
  | cons e rest ih =>
    obtain ⟨k, v⟩ := e
    rw [keys_cons, List.mem_cons, not_or] at h
    have hk : ¬ k = key := fun e => h.1 e.symm
    rw [insert, if_neg hk, ih h.2, List.cons_append]

theorem nodup_keys_insert {entries : Entries α} (h : (keys entries).Nodup) (key : String)
    (value : α) : (keys (insert key value entries)).Nodup := by
  rw [keys_insert]
  split
  · exact h
  · rename_i hk
    refine List.nodup_append.2 ⟨h, by simp, ?_⟩
    intro a ha b hb
    rw [List.mem_singleton] at hb
    rintro rfl
    exact hk (hb ▸ ha)

theorem get?_insert (key k : String) (value : α) (entries : Entries α) :
    get? k (insert key value entries) = if key = k then some value else get? k entries := by
  induction entries with
  | nil => simp [insert, get?]
  | cons e rest ih =>
    obtain ⟨k', v⟩ := e
    by_cases h : k' = key
    · subst h
      by_cases hk : k' = k <;> simp [insert, get?, hk]
    · by_cases hk : k' = k
      · subst hk
        have h' : ¬ key = k' := fun e => h e.symm
        simp [insert, get?, h, h']
      · simp [insert, get?, h, hk, ih]

theorem get?_eq_none_iff {key : String} {entries : Entries α} :
    get? key entries = none ↔ key ∉ keys entries := by
  induction entries with
  | nil => simp [get?]
  | cons e rest ih =>
    obtain ⟨k, v⟩ := e
    by_cases hk : k = key
    · simp [get?, hk]
    · have hk' : ¬ key = k := fun e => hk e.symm
      simp [get?, hk, hk', ih]

theorem mem_of_get? {key : String} {value : α} {entries : Entries α}
    (h : get? key entries = some value) : (key, value) ∈ entries := by
  induction entries with
  | nil => simp [get?] at h
  | cons e rest ih =>
    obtain ⟨k, v⟩ := e
    by_cases hk : k = key
    · simp only [get?, if_pos hk, Option.some.injEq] at h
      simp [hk, h]
    · rw [get?, if_neg hk] at h
      exact List.mem_cons_of_mem _ (ih h)

theorem get?_of_mem {key : String} {value : α} {entries : Entries α} (h : (keys entries).Nodup)
    (hmem : (key, value) ∈ entries) : get? key entries = some value := by
  induction entries with
  | nil => cases hmem
  | cons e rest ih =>
    rw [keys_cons, List.nodup_cons] at h
    cases hmem with
    | head => rw [get?, if_pos rfl]
    | tail _ hrest =>
      have hne : e.1 ≠ key := by
        rintro rfl
        exact h.1 (List.mem_map.2 ⟨_, hrest, rfl⟩)
      rw [get?, if_neg hne, ih h.2 hrest]

/-- Changed values keep their keys. -/
theorem keys_map {β : Type} (f : α → β) (entries : Entries α) :
    keys (entries.map fun e => (e.1, f e.2)) = keys entries := by
  rw [keys, List.map_map]
  rfl

end Entries

/-- A dictionary with string keys, in the order in which the keys first came. -/
@[ext] structure Dict (α : Type) where
  entries : Entries α
  nodup : (Entries.keys entries).Nodup

namespace Dict

variable {α : Type}

instance [DecidableEq α] : DecidableEq (Dict α) := fun a b =>
  decidable_of_iff (a.entries = b.entries) Dict.ext_iff.symm

/-- The dictionary without keys. -/
def empty : Dict α := ⟨[], by simp⟩

instance : Inhabited (Dict α) := ⟨empty⟩

/-- No key at all. -/
def isEmpty (d : Dict α) : Bool := d.entries.isEmpty

/-- The keys, by first insertion. -/
def keys (d : Dict α) : List String := Entries.keys d.entries

/-- The value under `key`. -/
def get? (d : Dict α) (key : String) : Option α := Entries.get? key d.entries

/-- Put `value` under `key`: a known key keeps its place. -/
def insert (d : Dict α) (key : String) (value : α) : Dict α :=
  ⟨Entries.insert key value d.entries, Entries.nodup_keys_insert d.nodup key value⟩

/-- Insert pairs from left to right: a repeated key keeps its first place and its last value. -/
def ofList (pairs : List (String × α)) : Dict α :=
  pairs.foldl (fun d p => d.insert p.1 p.2) empty

@[simp] theorem get?_empty (k : String) : (empty : Dict α).get? k = none := rfl

@[simp] theorem keys_empty : (empty : Dict α).keys = [] := rfl

theorem get?_insert (d : Dict α) (key k : String) (value : α) :
    (d.insert key value).get? k = if key = k then some value else d.get? k :=
  Entries.get?_insert key k value d.entries

theorem keys_insert (d : Dict α) (key : String) (value : α) :
    (d.insert key value).keys = if key ∈ d.keys then d.keys else d.keys ++ [key] :=
  Entries.keys_insert key value d.entries

theorem foldl_insert_entries (pairs : List (String × α)) (d : Dict α)
    (h : (Entries.keys (d.entries ++ pairs)).Nodup) :
    (pairs.foldl (fun d p => d.insert p.1 p.2) d).entries = d.entries ++ pairs := by
  induction pairs generalizing d with
  | nil => simp
  | cons p rest ih =>
    have hk : p.1 ∉ Entries.keys d.entries := by
      rw [Entries.keys, List.map_append, List.nodup_append] at h
      intro hp
      exact h.2.2 p.1 hp p.1 (by simp) rfl
    have hi : (d.insert p.1 p.2).entries = d.entries ++ [p] :=
      Entries.insert_of_notMem p.2 hk
    rw [List.foldl_cons, ih _ (by rw [hi]; simpa using h), hi]
    simp

/-- Pairs whose keys are different make the dictionary that lists them. -/
theorem entries_ofList {pairs : List (String × α)} (h : (Entries.keys pairs).Nodup) :
    (ofList pairs).entries = pairs := by
  have := foldl_insert_entries pairs empty (by simpa [empty] using h)
  simpa [ofList, empty] using this

theorem ofList_entries (d : Dict α) : ofList d.entries = d :=
  Dict.ext (entries_ofList d.nodup)

end Dict

end ListQuery
