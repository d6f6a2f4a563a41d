import ListQuery.Builder
import ListQuery.Request.Calls
import Mathlib.Data.List.Basic
import Mathlib.Data.List.Induction

/-!
# The order of calls

A request is put together call by call. A call under a key that is there already replaces its value
and keeps its place, a range is added behind the others, and a call of the other kinds replaces what
the last of its kind has set. No call touches what calls of another kind set, so that only the order
among the calls of one kind counts.

`apply_eq` says what one call changes, `ofCalls_eq` what a sequence of calls leaves: each part of the
request is read off the calls of its kind. The dictionaries in it are read off their insertions, as
each key once, where it came first, with the value that came last (`Dict.entries_ofList_eq_latest`).
-/

namespace ListQuery

/-! ### Dictionaries by insertion -/

namespace Dict

variable {α : Type}

theorem ofList_concat (pairs : List (String × α)) (pair : String × α) :
    ofList (pairs ++ [pair]) = (ofList pairs).insert pair.1 pair.2 := by
  rw [ofList, List.foldl_append]
  rfl

/-- The keys of insertions are where they came first. -/
theorem keys_ofList (pairs : List (String × α)) :
    (ofList pairs).keys = (Entries.keys pairs).eraseDups := by
  induction pairs using List.reverseRecOn with
  | nil => rfl
  | append_singleton pairs pair ih =>
    rw [ofList_concat, keys_insert, ih, Entries.keys, Entries.keys, List.map_append,
      List.eraseDups_append]
    simp only [List.mem_eraseDups]
    by_cases h : pair.1 ∈ List.map Prod.fst pairs
    · simp [h, List.removeAll]
    · simp [h, List.removeAll, List.eraseDups_cons]

/-- The value of a key is the one that was inserted last. -/
theorem get?_ofList (pairs : List (String × α)) (key : String) :
    (ofList pairs).get? key = Entries.last? key pairs := by
  induction pairs using List.reverseRecOn with
  | nil => rfl
  | append_singleton pairs pair ih => rw [ofList_concat, get?_insert, ih, Entries.last?_concat]

/-- A dictionary is its keys with what they hold. -/
theorem entries_eq_filterMap_keys (d : Dict α) :
    d.entries = d.keys.filterMap fun key => (d.get? key).map fun value => (key, value) := by
  obtain ⟨entries, nodup⟩ := d
  show entries = (Entries.keys entries).filterMap fun key =>
    (Entries.get? key entries).map fun value => (key, value)
  induction entries with
  | nil => rfl
  | cons entry rest ih =>
    obtain ⟨k, v⟩ := entry
    rw [Entries.keys_cons, List.nodup_cons] at nodup
    have hrest : (Entries.keys rest).filterMap (fun key =>
        (Entries.get? key ((k, v) :: rest)).map fun value => (key, value)) = rest := by
      refine (List.filterMap_congr fun key hkey => ?_).trans (ih nodup.2).symm
      have hk : ¬ k = key := fun he => nodup.1 (he ▸ hkey)
      rw [Entries.get?, if_neg hk]
    rw [Entries.keys_cons, List.filterMap_cons, hrest, Entries.get?, if_pos rfl]
    rfl

/-- Insertions leave each key once, at its first place, with its last value. -/
theorem entries_ofList_eq_latest (pairs : List (String × α)) :
    (ofList pairs).entries = Entries.latest pairs := by
  rw [entries_eq_filterMap_keys, keys_ofList, Entries.latest]
  simp only [get?_ofList]

end Dict

namespace Request

open Call

/-! ### What calls leave -/

/-- A call changes what its kind sets and nothing else. -/
theorem apply_eq (r : Request) (call : Call) :
    r.apply call =
      { filters := call.filter?.elim r.filters fun pair => r.filters.insert pair.1 pair.2
        searches := call.search?.elim r.searches fun pair => r.searches.insert pair.1 pair.2
        ranges := r.ranges ++ call.range?.toList
        orderKey := call.order?.elim r.orderKey fun order => some order.1
        direction := call.order?.elim r.direction fun order => order.2
        page := call.page?.elim r.page fun n => some (.valid n)
        rows := call.rows?.elim r.rows fun n => some (.valid n) } := by
  cases call <;> simp [apply, filter?, search?, range?, order?, page?, rows?]

theorem ofCalls_concat (calls : List Call) (call : Call) :
    ofCalls (calls ++ [call]) = (ofCalls calls).apply call := by
  rw [ofCalls, List.foldl_append]
  rfl

/-- Each part of the request is what the calls of its kind leave. -/
theorem ofCalls_eq (calls : List Call) :
    ofCalls calls =
      { filters := .ofList (calls.filterMap filter?)
        searches := .ofList (calls.filterMap search?)
        ranges := calls.filterMap range?
        orderKey := (calls.filterMap order?).getLast?.map Prod.fst
        direction := (calls.filterMap order?).getLast?.bind Prod.snd
        page := (calls.filterMap page?).getLast?.map .valid
        rows := (calls.filterMap rows?).getLast?.map .valid } := by
  induction calls using List.reverseRecOn with
  | nil => rfl
  | append_singleton calls call ih =>
    rw [ofCalls_concat, ih, apply_eq]
    cases call <;>
      simp [List.filterMap_cons, filter?, search?, range?, order?, page?, rows?, Dict.ofList_concat]

/-- Only the order among the calls of one kind counts. -/
theorem ofCalls_congr {calls calls' : List Call}
    (h : ∀ kind, calls'.filter (·.kind = kind) = calls.filter (·.kind = kind)) :
    ofCalls calls' = ofCalls calls := by
  have hpick {α : Type} (pick : Call → Option α) (kind : Kind)
      (hkind : ∀ call, call.kind ≠ kind → pick call = none) :
      calls'.filterMap pick = calls.filterMap pick := by
    rw [← filterMap_filter_kind hkind, h, filterMap_filter_kind hkind]
  rw [ofCalls_eq, ofCalls_eq, hpick filter? .filter ?_, hpick search? .search ?_,
    hpick range? .range ?_, hpick order? .order ?_, hpick page? .page ?_, hpick rows? .rows ?_]
  -- what is left is that no call of another kind is picked
  all_goals
    intro call hkind
    cases call <;> first | rfl | exact absurd rfl hkind

/-- **Calls count by their kind.** Sequences with the same calls of each kind in the same order make
the same request, and so the same query, report and builds. In it each filter and each search stands
once, where its key came first and with the value that came last; every call adds its range, and the
order, the page and the number of rows are those of the last calls that set them. So the compiled
conjunction has an entry for each filter key whose last value is not `null`, at most one for the
searches, and an entry for each range. -/
theorem ofCalls_by_kind (calls : List Call) :
    (∀ calls', (∀ kind, calls'.filter (·.kind = kind) = calls.filter (·.kind = kind)) →
      ofCalls calls' = ofCalls calls ∧
      Query.ofRequest (ofCalls calls') = Query.ofRequest (ofCalls calls) ∧
      (∀ s, (ofCalls calls').validate s = (ofCalls calls).validate s) ∧
      ∀ b : Builder, b.build (ofCalls calls') = b.build (ofCalls calls) ∧
        b.buildUnchecked (ofCalls calls') = b.buildUnchecked (ofCalls calls) ∧
        b.tryBuild (ofCalls calls') = b.tryBuild (ofCalls calls)) ∧
    (ofCalls calls).filters.entries = Entries.latest (calls.filterMap filter?) ∧
    (ofCalls calls).searches.entries = Entries.latest (calls.filterMap search?) ∧
    (ofCalls calls).ranges = calls.filterMap range? ∧
    (ofCalls calls).orderKey = (calls.filterMap order?).getLast?.map Prod.fst ∧
    (ofCalls calls).direction = (calls.filterMap order?).getLast?.bind Prod.snd ∧
    (ofCalls calls).page = (calls.filterMap page?).getLast?.map .valid ∧
    (ofCalls calls).rows = (calls.filterMap rows?).getLast?.map .valid ∧
    ∃ search : Option Condition,
      (search = none ↔ ∀ member ∈ Entries.latest (calls.filterMap search?), member.2 = .null) ∧
      (Condition.ofRequest (ofCalls calls)).andEntries =
        ((Entries.latest (calls.filterMap filter?)).filter (!·.2.isNull)).map .ofFilter ++
          search.toList ++ (calls.filterMap range?).map .ofRange := by
  have hcalls := ofCalls_eq calls
  have hfilters : (ofCalls calls).filters.entries = Entries.latest (calls.filterMap filter?) := by
    rw [hcalls, Dict.entries_ofList_eq_latest]
  have hsearches : (ofCalls calls).searches.entries = Entries.latest (calls.filterMap search?) := by
    rw [hcalls, Dict.entries_ofList_eq_latest]
  have hranges : (ofCalls calls).ranges = calls.filterMap range? := by rw [hcalls]
  refine ⟨fun calls' h => ?_, hfilters, hsearches, hranges, by rw [hcalls], by rw [hcalls],
    by rw [hcalls], by rw [hcalls], Condition.ofSearches? (ofCalls calls).searches, ?_, ?_⟩
  · rw [ofCalls_congr h]
    simp
  · rw [Condition.ofSearches?_eq_none_iff, Dict.present_eq_nil_iff, hsearches, Prod.forall]
  · rw [← hfilters, ← hranges]
    rfl

/-- The same calls one kind after another, and in between each other; one filter comes twice. -/
theorem ofCalls_of_mixed_calls :
    ofCalls [.search "title" (.string "x"), .page ⟨2, by decide, by decide⟩,
        .filter "status" .null, .order "name" none, .filter "author.name" (.string "Ada"),
        .range "age" .null (.bool true), .filter "status" (.string "open")] =
      ofCalls [.filter "status" .null, .filter "author.name" (.string "Ada"),
        .filter "status" (.string "open"), .search "title" (.string "x"),
        .range "age" .null (.bool true), .order "name" none, .page ⟨2, by decide, by decide⟩] :=
  ((ofCalls_by_kind _).1 _ fun kind => by cases kind <;> rfl).1

end Request

end ListQuery
