import ListQuery.Validation

/-!
# A report is the report on each part

A request has parts: each filter, each search, each range, the order key, the page and the rows. A
part can be asked for alone (`Request.Part.alone`), and such a request is checked like any other. A
whole request is its parts and a sort direction (`ofParts_parts`), and no check looks at the
direction.

`validate_parts` says that the checks of a request do not see each other. What is found is what is
found of each part alone, in the order of the parts: nothing ends the validation early, and no
finding is lost, repeated or moved for what another part has. It rests on one lemma for a single part,
whose other sections are empty and add nothing (`check_alone`), and on the one that puts the parts
together (`check_eq_concat`).
-/

namespace ListQuery

/-! ### Parts of a request -/

namespace Request

/-- A part of a request, which a specification checks. -/
inductive Part where
  | filter (key : String) (value : Json)
  | search (key : String) (value : Json)
  | range (r : RangeFilter)
  | orderKey (key : String)
  | page (p : PageParam)
  | rows (p : PageParam)

/-- A request with one more part, behind those of the same kind. -/
def addPart (r : Request) : Part → Request
  | .filter key value => { r with filters := r.filters.insert key value }
  | .search key value => { r with searches := r.searches.insert key value }
  | .range range => { r with ranges := r.ranges ++ [range] }
  | .orderKey key => { r with orderKey := some key }
  | .page p => { r with page := some p }
  | .rows p => { r with rows := some p }

/-- The request that asks for a part and for nothing else. -/
def Part.alone (part : Part) : Request := empty.addPart part

/-- The request that several parts make. -/
def ofParts (parts : List Part) : Request := parts.foldl addPart empty

/-- The parts of a request: its filters, its searches and its ranges in their order, then its order
key, its page and its rows. -/
def parts (r : Request) : List Part :=
  r.filters.entries.map (fun member => .filter member.1 member.2) ++
    r.searches.entries.map (fun member => .search member.1 member.2) ++
    r.ranges.map .range ++ r.orderKey.toList.map .orderKey ++ r.page.toList.map .page ++
    r.rows.toList.map .rows

/-- Parts that insert into one dictionary of a request fill that dictionary. -/
theorem foldl_addPart_members (part : String → Json → Part) (put : Dict Json → Request)
    (h : ∀ d key value, (put d).addPart (part key value) = put (d.insert key value))
    (d : Dict Json) :
    (d.entries.map fun member => part member.1 member.2).foldl addPart (put .empty) = put d := by
  have hfold (members : List (String × Json)) (d : Dict Json) :
      (members.map fun member => part member.1 member.2).foldl addPart (put d) =
        put (members.foldl (fun d member => d.insert member.1 member.2) d) := by
    induction members generalizing d with
    | nil => rfl
    | cons member rest ih => rw [List.map_cons, List.foldl_cons, h, ih, List.foldl_cons]
  exact (hfold d.entries .empty).trans (congrArg put d.ofList_entries)

theorem foldl_addPart_ranges (ranges : List RangeFilter) (r : Request) :
    (ranges.map Part.range).foldl addPart r = { r with ranges := r.ranges ++ ranges } := by
  induction ranges generalizing r with
  | nil => simp
  | cons range rest ih =>
    rw [List.map_cons, List.foldl_cons, ih]
    simp [addPart]

/-- A request is made of its parts, but for the direction of its order. -/
theorem ofParts_parts (r : Request) : ofParts r.parts = { r with direction := none } := by
  rcases r with ⟨filters, searches, ranges, orderKey, direction, page, rows⟩
  have hfilters : (filters.entries.map fun member => Part.filter member.1 member.2).foldl
      addPart empty = { empty with filters } :=
    foldl_addPart_members .filter (fun d => { empty with filters := d }) (fun _ _ _ => rfl) filters
  have hsearches : (searches.entries.map fun member => Part.search member.1 member.2).foldl
      addPart { empty with filters } = { empty with filters, searches } :=
    foldl_addPart_members .search (fun d => { empty with filters, searches := d })
      (fun _ _ _ => rfl) searches
  rw [ofParts, parts]
  simp only [List.foldl_append, hfilters, hsearches, foldl_addPart_ranges]
  cases orderKey <;> cases page <;> cases rows <;> simp [addPart, empty]

end Request

/-! ### Part by part -/

namespace Specification

variable (s : Specification)

/-- The check of a part. -/
def checkPart : Request.Part → Report
  | .filter key _ | .search key _ | .orderKey key => s.checkField key
  | .range r => s.checkRange r
  | .page p => checkPage p
  | .rows p => s.checkRows p

/-- Of a part alone the check of its kind is all there is to report. -/
theorem check_alone (part : Request.Part) : s.check part.alone = s.checkPart part := by
  cases part <;>
    simp [check, checkPart, Request.Part.alone, Request.addPart, Request.empty, Dict.keys,
      Dict.insert, Dict.empty, Entries.insert]

/-- The findings on a request are those on its parts in order. -/
theorem check_eq_concat (r : Request) :
    s.check r = .concat (r.parts.map fun part => s.check part.alone) := by
  have halone : (fun part : Request.Part => s.check part.alone) = s.checkPart :=
    funext s.check_alone
  have hkeys (d : Dict Json) : d.keys = d.entries.map Prod.fst := rfl
  rw [halone, check, Request.parts]
  simp only [hkeys, List.map_append, Report.concat_append, List.map_map]
  rfl

end Specification

namespace Request

variable (s : Specification) (r : Request)

theorem validate_eq_concat :
    r.validate (some s) = .concat (r.parts.map fun part => part.alone.validate (some s)) :=
  s.check_eq_concat r

/-- A request is valid exactly if each of its parts is. -/
theorem isValid_validate_eq_all :
    (r.validate (some s)).isValid =
      r.parts.all fun part => (part.alone.validate (some s)).isValid := by
  rw [Bool.eq_iff_iff, validate_eq_concat, Report.isValid_concat_iff, List.all_eq_true,
    List.forall_mem_map]

/-- **A report is the report on each part**: the errors and the warnings of a request are those of
its parts alone, in their order; it is valid if all of them are, and then its warnings are given
back, and otherwise all its errors. -/
theorem validate_parts :
    ofParts r.parts = { r with direction := none } ∧
    (r.validate (some s)).errors =
      r.parts.flatMap (fun part => (part.alone.validate (some s)).errors) ∧
    (r.validate (some s)).warnings =
      r.parts.flatMap (fun part => (part.alone.validate (some s)).warnings) ∧
    (r.validate (some s)).isValid =
      r.parts.all (fun part => (part.alone.validate (some s)).isValid) ∧
    (r.validate (some s)).toExcept =
      if r.parts.all fun part => (part.alone.validate (some s)).isValid then
        .ok (r.parts.flatMap fun part => (part.alone.validate (some s)).warningMessages)
      else
        .error (.validationFailed
          (r.parts.flatMap fun part => (part.alone.validate (some s)).errorMessages)) := by
  have herrors : (r.validate (some s)).errors =
      r.parts.flatMap fun part => (part.alone.validate (some s)).errors := by
    rw [validate_eq_concat, Report.errors_concat, List.flatMap_map]
  have hwarnings : (r.validate (some s)).warnings =
      r.parts.flatMap fun part => (part.alone.validate (some s)).warnings := by
    rw [validate_eq_concat, Report.warnings_concat, List.flatMap_map]
  refine ⟨r.ofParts_parts, herrors, hwarnings, r.isValid_validate_eq_all s, ?_⟩
  rw [Report.toExcept, r.isValid_validate_eq_all s, Report.warningMessages, hwarnings,
    Report.errorMessages, herrors, List.map_flatMap, List.map_flatMap]
  rfl

end Request

end ListQuery
