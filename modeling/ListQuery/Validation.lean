import ListQuery.Calendar.Reader
import ListQuery.Specification

/-!
# Validation

A request is checked against a specification, part by part: filters, searches, ranges, the order
key, the page and the rows. All checks run, and each part adds its own findings to the report.
Errors refuse the request, warnings do not.
-/

namespace ListQuery

/-- Why a request is refused. -/
inductive Problem where
  | forbiddenField (path : String)
  | relationNotAllowed (relation : String)
  /-- The start of a range is a later date than its end. -/
  | reversedRange (key : String)
  | pageBelowOne
  | pageNotInteger (text : String)
  | rowsBelowOne
  | rowsAboveMaximum (maximum : Unsigned64)
  | rowsNotInteger (text : String)
deriving DecidableEq

/-- The wording of a problem. -/
def Problem.message : Problem → String
  | .forbiddenField path => "Field '" ++ path ++ "' is forbidden"
  | .relationNotAllowed relation => "Relation '" ++ relation ++ "' is not allowed"
  | .reversedRange key => "Invalid range for '" ++ key ++ "': start date is after end date"
  | .pageBelowOne => "Page must be greater than or equal to 1"
  | .pageNotInteger text => "Page must be a valid integer, got '" ++ text ++ "'"
  | .rowsBelowOne => "Rows must be greater than or equal to 1"
  | .rowsAboveMaximum maximum =>
    "Rows cannot exceed the maximum page size of " ++ String.ofList (integerText maximum.val)
  | .rowsNotInteger text => "Rows must be a valid integer, got '" ++ text ++ "'"

/-- What a client should know about a request that is not refused for it. -/
inductive Caution where
  /-- A field that the specification does not list. -/
  | unlistedField (path : String)
deriving DecidableEq

/-- The wording of a caution. -/
def Caution.message : Caution → String
  | .unlistedField path => "Field '" ++ path ++ "' is not in the list of allowed fields"

/-- The findings of a validation. -/
@[ext] structure Report where
  errors : List Problem
  warnings : List Caution
deriving DecidableEq

namespace Report

/-- Nothing to report. -/
def clean : Report := ⟨[], []⟩

/-- The findings of one part, then those of another. -/
def append (a b : Report) : Report := ⟨a.errors ++ b.errors, a.warnings ++ b.warnings⟩

instance : Append Report := ⟨append⟩

/-- The findings of several parts in order. -/
def concat (reports : List Report) : Report := reports.foldr append clean

/-- One error. -/
def ofError (e : Problem) : Report := ⟨[e], []⟩

/-- The request is not refused. -/
def isValid (r : Report) : Bool := r.errors.isEmpty

/-- The texts of the errors. -/
def errorMessages (r : Report) : List String := r.errors.map Problem.message

/-- The texts of the warnings. -/
def warningMessages (r : Report) : List String := r.warnings.map Caution.message

/-- The warnings of a valid report, or an error with all errors. -/
def toExcept (r : Report) : Except QueryError (List String) :=
  if r.isValid then .ok r.warningMessages else .error (.validationFailed r.errorMessages)

/-- The object form of a report. -/
def toJson (r : Report) : Json :=
  .object
    [ ("isValid", .bool r.isValid), ("errors", .strings r.errorMessages),
      ("warnings", .strings r.warningMessages) ]

@[simp] theorem errors_append (a b : Report) : (a ++ b).errors = a.errors ++ b.errors := rfl

@[simp] theorem warnings_append (a b : Report) : (a ++ b).warnings = a.warnings ++ b.warnings := rfl

@[simp] theorem concat_nil : concat [] = clean := rfl

@[simp] theorem concat_cons (r : Report) (rs : List Report) :
    concat (r :: rs) = r ++ concat rs := rfl

@[simp] theorem isValid_clean : clean.isValid = true := rfl

@[simp] theorem isValid_ofError (e : Problem) : (ofError e).isValid = false := rfl

@[simp] theorem isValid_append (a b : Report) : (a ++ b).isValid = (a.isValid && b.isValid) := by
  rw [isValid, isValid, isValid, errors_append]
  cases a.errors <;> rfl

@[simp] theorem clean_append (a : Report) : clean ++ a = a := rfl

@[simp] theorem append_clean (a : Report) : a ++ clean = a :=
  Report.ext (List.append_nil _) (List.append_nil _)

theorem append_assoc (a b c : Report) : a ++ b ++ c = a ++ (b ++ c) :=
  Report.ext (List.append_assoc _ _ _) (List.append_assoc _ _ _)

theorem concat_append (as bs : List Report) : concat (as ++ bs) = concat as ++ concat bs := by
  induction as with
  | nil => rfl
  | cons a as ih => rw [List.cons_append, concat_cons, concat_cons, ih, append_assoc]

/-- The errors of several parts are those of each in turn. -/
theorem errors_concat (reports : List Report) :
    (concat reports).errors = reports.flatMap Report.errors := by
  induction reports with
  | nil => rfl
  | cons r rs ih => rw [concat_cons, errors_append, ih, List.flatMap_cons]

/-- The warnings of several parts are those of each in turn. -/
theorem warnings_concat (reports : List Report) :
    (concat reports).warnings = reports.flatMap Report.warnings := by
  induction reports with
  | nil => rfl
  | cons r rs ih => rw [concat_cons, warnings_append, ih, List.flatMap_cons]

/-- The findings of several parts refuse nothing exactly if those of no part do. -/
theorem isValid_concat_iff {reports : List Report} :
    (concat reports).isValid = true ↔ ∀ r ∈ reports, r.isValid = true := by
  induction reports with
  | nil => simp
  | cons r rs ih => rw [concat_cons, isValid_append, Bool.and_eq_true, ih, List.forall_mem_cons]

end Report

namespace Specification

/-- The check of a field path itself: forbidden comes before not listed. -/
def checkName (s : Specification) (path : String) : Report :=
  if path ∈ s.forbiddenFields then .ofError (.forbiddenField path)
  else
    match s.allowedFields with
    | none => .clean
    | some allowed => if path ∈ allowed then .clean else ⟨[], [.unlistedField path]⟩

/-- The check of the relation that a field path goes through. -/
def checkRelation (s : Specification) (path : String) : Report :=
  match (FieldPath.ofString path).relation?, s.allowedRelations with
  | some relation, some allowed =>
    if relation ∈ allowed then .clean else .ofError (.relationNotAllowed relation)
  | _, _ => .clean

/-- The checks of a field path. -/
def checkField (s : Specification) (path : String) : Report :=
  s.checkName path ++ s.checkRelation path

/-- The instant of a range bound, if it is a date in the strict form. -/
def boundInstant? : Json → Option Calendar.Instant
  | .string text => Calendar.Instant.ofStrictUtc? text
  | _ => none

/-- The check of the bounds of a range, which has something to say only if both are dates. -/
def checkBounds (r : RangeFilter) : Report :=
  match boundInstant? r.start, boundInstant? r.stop with
  | some start, some stop =>
    if start.isAfter stop then .ofError (.reversedRange r.key) else .clean
  | _, _ => .clean

/-- The checks of a range. -/
def checkRange (s : Specification) (r : RangeFilter) : Report :=
  s.checkField r.key ++ checkBounds r

/-- The check of the page number. -/
def checkPage : PageParam → Report
  | .valid n => if n.val < 1 then .ofError .pageBelowOne else .clean
  | .invalid raw => .ofError (.pageNotInteger (PageParam.text (.invalid raw)))

/-- The check of the number of rows. -/
def checkRows (s : Specification) : PageParam → Report
  | .valid n =>
    if n.val < 1 then .ofError .rowsBelowOne
    else
      match s.maxPageSize with
      | none => .clean
      | some maximum =>
        if maximum.val < n.val then .ofError (.rowsAboveMaximum maximum) else .clean
  | .invalid raw => .ofError (.rowsNotInteger (PageParam.text (.invalid raw)))

/-- The report on a request. -/
def check (s : Specification) (r : Request) : Report :=
  .concat (r.filters.keys.map s.checkField) ++ .concat (r.searches.keys.map s.checkField) ++
    .concat (r.ranges.map s.checkRange) ++ .concat (r.orderKey.toList.map s.checkField) ++
    .concat (r.page.toList.map checkPage) ++ .concat (r.rows.toList.map s.checkRows)

end Specification

/-- The report on a request; without a specification every request is valid. -/
def Request.validate (r : Request) (specification : Option Specification) : Report :=
  match specification with
  | none => .clean
  | some s => s.check r

end ListQuery
