import ListQuery.Request

/-!
# The calls that make a request

A request is put together by calls of six kinds. The other reading of a sequence of calls keeps no
request: it picks the calls of one kind (`Call.filter?` and its like), and of pairs that come under
keys it takes each key once, where it came first, with the value that came last (`Entries.latest`).
-/

namespace ListQuery

/-! ### What was put under a key last -/

namespace Entries

variable {α : Type}

/-- The last value under `key`. -/
def last? (key : String) (pairs : Entries α) : Option α :=
  (pairs.filter (·.1 = key)).getLast?.map Prod.snd

/-- Each key once, at its first place, with its last value. -/
def latest (pairs : Entries α) : Entries α :=
  (keys pairs).eraseDups.filterMap fun key => (last? key pairs).map fun value => (key, value)

@[simp] theorem last?_nil (key : String) : last? key ([] : Entries α) = none := rfl

/-- A pair that comes last is the last one under its key, and under no other. -/
theorem last?_concat (key : String) (pairs : Entries α) (pair : String × α) :
    last? key (pairs ++ [pair]) = if pair.1 = key then some pair.2 else last? key pairs := by
  by_cases h : pair.1 = key <;> simp [last?, h]

end Entries

namespace Request.Call

/-- The kinds of calls. -/
inductive Kind where
  | filter
  | search
  | range
  | order
  | page
  | rows
deriving DecidableEq

/-- The kind of a call. -/
def kind : Call → Kind
  | .filter _ _ => .filter
  | .search _ _ => .search
  | .range _ _ _ => .range
  | .order _ _ => .order
  | .page _ => .page
  | .rows _ => .rows

/-- The filter that a call sets, if it does. -/
def filter? : Call → Option (String × Json)
  | .filter key value => some (key, value)
  | _ => none

/-- The search that a call sets, if it does. -/
def search? : Call → Option (String × Json)
  | .search key value => some (key, value)
  | _ => none

/-- The range that a call adds, if it does. -/
def range? : Call → Option RangeFilter
  | .range key start stop => some ⟨key, start, stop⟩
  | _ => none

/-- The order that a call sets, if it does. -/
def order? : Call → Option (String × Option Direction)
  | .order key direction => some (key, direction)
  | _ => none

/-- The page number that a call sets, if it does. -/
def page? : Call → Option Signed64
  | .page n => some n
  | _ => none

/-- The number of rows that a call sets, if it does. -/
def rows? : Call → Option Signed64
  | .rows n => some n
  | _ => none

/-- What is picked from the calls of one kind is picked from the calls of this kind alone. -/
theorem filterMap_filter_kind {α : Type} {pick : Call → Option α} {kind : Kind}
    (h : ∀ call, call.kind ≠ kind → pick call = none) (calls : List Call) :
    (calls.filter (·.kind = kind)).filterMap pick = calls.filterMap pick := by
  rw [List.filterMap_filter]
  congr 1
  funext call
  by_cases hkind : call.kind = kind
  · simp [hkind]
  · simp [hkind, h call hkind]

end Request.Call

end ListQuery
