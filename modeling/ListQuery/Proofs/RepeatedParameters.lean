import ListQuery.Params

/-!
# Parameters that come several times

The pairs of a query string are taken one by one, into seven places of which each keeps what came
first. Collected by name they are a dictionary instead, which is asked for seven names. This module
says that both read the same parameters, whatever the pairs and however they are interleaved.

Either way the parameters are a look-up under seven names (`ofLookup`). One pair changes the look-up
where it had nothing (`offer_ofLookup`), and so a run over the pairs finds the first text of each name
(`ofPairs_eq`), which is the text that counts of all that were collected (`Collects.first?_eq`).
-/

namespace ListQuery

/-! ### Collecting by name -/

namespace ParamValue

/-- What the texts of one name are collected to. A single text may stand alone or in a list. -/
inductive Collects : List String → Option ParamValue → Prop where
  | absent : Collects [] none
  | one (text : String) : Collects [text] (some (.one text))
  | many {texts : List String} (h : texts ≠ []) : Collects texts (some (.many texts))

/-- Of the texts that are collected the first one counts. -/
theorem Collects.first?_eq {texts : List String} {value : Option ParamValue}
    (h : Collects texts value) : value.bind first? = texts.head? := by
  cases h <;> rfl

/-- A name's texts with one more behind them. -/
def add (text : String) : Option ParamValue → ParamValue
  | none => .one text
  | some (.one first) => .many [first, text]
  | some (.many texts) => .many (texts ++ [text])

theorem Collects.add {texts : List String} {value : Option ParamValue} (h : Collects texts value)
    (text : String) : Collects (texts ++ [text]) (some (ParamValue.add text value)) := by
  cases h with
  | absent => exact .one text
  | one first => exact .many (List.cons_ne_nil _ _)
  | many h => exact .many (List.append_ne_nil_of_left_ne_nil h _)

end ParamValue

namespace Params

open ParamValue

/-- The texts that come under a name, in their order. -/
def textsUnder (name : String) (pairs : List (String × String)) : List String :=
  (pairs.filter (·.1 = name)).map Prod.snd

/-- A dictionary that holds, under each name that comes, the texts that come under it. -/
def CollectedFrom (pairs : List (String × String)) (d : Dict ParamValue) : Prop :=
  ∀ name, Collects (textsUnder name pairs) (d.get? name)

/-- A dictionary with one more pair collected. -/
def collectOne (d : Dict ParamValue) (pair : String × String) : Dict ParamValue :=
  d.insert pair.1 (add pair.2 (d.get? pair.1))

/-- The pairs collected by name. -/
def collect (pairs : List (String × String)) : Dict ParamValue := pairs.foldl collectOne .empty

theorem textsUnder_append (name : String) (pairs rest : List (String × String)) :
    textsUnder name (pairs ++ rest) = textsUnder name pairs ++ textsUnder name rest := by
  simp only [textsUnder, List.filter_append, List.map_append]

/-- One more pair adds its text to the texts of its name, and to no others. -/
theorem CollectedFrom.collectOne {pairs : List (String × String)} {d : Dict ParamValue}
    (h : CollectedFrom pairs d) (pair : String × String) :
    CollectedFrom (pairs ++ [pair]) (Params.collectOne d pair) := by
  intro name
  rw [textsUnder_append, Params.collectOne, Dict.get?_insert]
  by_cases hname : pair.1 = name
  · subst hname
    simpa [textsUnder] using (h pair.1).add pair.2
  · simpa [textsUnder, hname] using h name

theorem collectedFrom_collect (pairs : List (String × String)) :
    CollectedFrom pairs (collect pairs) := by
  have hrun (done rest : List (String × String)) (d : Dict ParamValue) (h : CollectedFrom done d) :
      CollectedFrom (done ++ rest) (rest.foldl Params.collectOne d) := by
    induction rest generalizing done d with
    | nil => rwa [List.append_nil]
    | cons pair rest ih =>
      rw [List.append_cons]
      exact ih _ _ (h.collectOne pair)
  exact hrun [] pairs .empty fun _ => .absent

/-! ### Parameters as a look-up -/

/-- The names under which the seven parameters come. -/
def names : List String :=
  ["filters", "searchFilters", "rangedFilters", "orderKey", "orderRule", "page", "rows"]

/-- The parameters that a look-up finds under their names. -/
def ofLookup (text? : String → Option String) : Params where
  filters := text? "filters"
  searches := text? "searchFilters"
  ranges := text? "rangedFilters"
  orderKey := text? "orderKey"
  direction := text? "orderRule"
  page := text? "page"
  rows := text? "rows"

theorem ofLookup_congr {f g : String → Option String} (h : ∀ name ∈ names, f name = g name) :
    ofLookup f = ofLookup g := by
  simp only [names, List.forall_mem_cons] at h
  obtain ⟨hfilters, hsearches, hranges, horderKey, hdirection, hpage, hrows, -⟩ := h
  simp only [ofLookup, hfilters, hsearches, hranges, horderKey, hdirection, hpage, hrows]

/-- A pair counts where nothing has come under its name. -/
theorem offer_ofLookup (text? : String → Option String) (pair : String × String) :
    (ofLookup text?).offer pair =
      ofLookup fun name => (text? name).or (if pair.1 = name then some pair.2 else none) := by
  unfold offer
  -- one case for each place, and one for a name that has none
  split <;> simp_all [ofLookup]

/-- The pairs of a query string are a look-up of the first text under a name. -/
theorem ofPairs_eq (pairs : List (String × String)) :
    ofPairs pairs = ofLookup fun name => (textsUnder name pairs).head? := by
  have hrun (text? : String → Option String) :
      pairs.foldl offer (ofLookup text?) =
        ofLookup fun name => (text? name).or (textsUnder name pairs).head? := by
    induction pairs generalizing text? with
    | nil => simp [textsUnder]
    | cons pair rest ih =>
      rw [List.foldl_cons, offer_ofLookup, ih]
      congr 1
      funext name
      rw [Option.or_assoc]
      by_cases hname : pair.1 = name <;> simp [textsUnder, hname]
  exact hrun fun _ => none

/-- Other names do not matter, nor does what comes behind the first text of a name. -/
theorem ofPairs_congr {pairs pairs' : List (String × String)}
    (h : ∀ name ∈ names, (textsUnder name pairs').head? = (textsUnder name pairs).head?) :
    ofPairs pairs' = ofPairs pairs := by
  rw [ofPairs_eq, ofPairs_eq, ofLookup_congr h]

theorem textsUnder_filter (keep : String → Bool) {name : String} (h : keep name = true)
    (pairs : List (String × String)) :
    textsUnder name (pairs.filter fun pair => keep pair.1) = textsUnder name pairs := by
  rw [textsUnder, textsUnder, List.filter_filter]
  congr 1
  refine List.filter_congr fun pair _ => ?_
  by_cases hname : pair.1 = name
  · simp [hname, h]
  · simp [hname]

/-- **Both inputs read the same parameters**: the pairs of a query string in their order, and any
dictionary that holds under each name the texts that come under it. So the parameters stay the same
where pairs are put in another order in which those of each name keep theirs, and where pairs under
names of no parameter are put in or left out. -/
theorem ofPairs_collected (pairs : List (String × String)) :
    CollectedFrom pairs (collect pairs) ∧
    (∀ d, CollectedFrom pairs d → ofPairs pairs = ofDict d) ∧
    (∀ pairs', (∀ name, pairs'.filter (·.1 = name) = pairs.filter (·.1 = name)) →
      ofPairs pairs' = ofPairs pairs) ∧
    ∀ pairs', pairs'.filter (·.1 ∈ names) = pairs.filter (·.1 ∈ names) →
      ofPairs pairs' = ofPairs pairs := by
  refine ⟨collectedFrom_collect pairs, fun d hd => ?_, fun pairs' h => ?_, fun pairs' h => ?_⟩
  · rw [ofPairs_eq]
    exact ofLookup_congr fun name _ => (hd name).first?_eq.symm
  · refine ofPairs_congr fun name _ => ?_
    rw [textsUnder, textsUnder, h name]
  · refine ofPairs_congr fun name hname => ?_
    have hkeep := textsUnder_filter (· ∈ names) (decide_eq_true hname)
    rw [← hkeep pairs', h, hkeep]

/-- A page that comes twice, collected, moved and between names of no parameter. -/
theorem ofPairs_of_two_pages :
    let pairs := [("page", "2"), ("rows", "5"), ("page", "3")]
    let d := Dict.ofList [("rows", .one "5"), ("page", .many ["2", "3"])]
    let moved := [("page", "2"), ("page", "3"), ("rows", "5")]
    let longer := [("pages", "9"), ("page", "2"), ("rows", "5"), ("Page", "1"), ("page", "3")]
    ofPairs pairs = ofDict d ∧ ofPairs moved = ofPairs pairs ∧ ofPairs longer = ofPairs pairs := by
  intro pairs d moved longer
  have hall := ofPairs_collected pairs
  refine ⟨hall.2.1 d fun name => ?_, hall.2.2.1 moved fun name => ?_, hall.2.2.2 longer (by decide)⟩
  · by_cases hpage : "page" = name
    · subst hpage
      exact .many (List.cons_ne_nil "2" ["3"])
    · by_cases hrows : "rows" = name
      · subst hrows
        exact .one "5"
      · have hnone : d.get? name = none ∧ textsUnder name pairs = [] := by
          simp [d, pairs, Dict.ofList, Dict.get?_insert, textsUnder, hpage, hrows]
        rw [hnone.1, hnone.2]
        exact .absent
  · by_cases hpage : "page" = name
    · subst hpage
      decide
    · by_cases hrows : "rows" = name <;> simp [moved, pairs, hpage, hrows]

end Params

end ListQuery
