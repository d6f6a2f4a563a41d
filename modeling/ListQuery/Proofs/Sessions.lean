import ListQuery.Builder.Session

/-!
# What a session answers

A builder has four things that are configured, and six calls that set one of them. One call replaces
the thing that it sets, as a whole, and leaves the other three alone; a call that asks changes nothing
(`perform_eq`). So what a session leaves behind is what the last calls have set (`session_eq`).

`session_answers` says what that means for a request. Its report is the one under the specification
that was set last, and its query is the compiled one, resolved by the mapping that was set last, with
what was said last on related rows and columns. The ways to build agree on both. No query depends on
the specification, and no report on anything else.
-/

namespace ListQuery.Builder

open Call

/-- A call replaces what it sets and nothing else. -/
theorem perform_eq (b : Builder) (call : Call) :
    (b.perform call).1 =
      { specification := call.specification?.getD b.specification
        mapping := call.mapping?.getD b.mapping
        including := call.including?.getD b.including
        selecting := call.selecting?.getD b.selecting } := by
  cases call <;> rfl

/-- A session leaves behind what was set last. -/
theorem session_eq (b : Builder) (calls : List Call) :
    (b.session calls).1 =
      { specification := lastSet specification? b.specification calls
        mapping := lastSet mapping? b.mapping calls
        including := lastSet including? b.including calls
        selecting := lastSet selecting? b.selecting calls } := by
  induction calls generalizing b with
  | nil => rfl
  | cons call rest ih =>
    rw [session_cons, ih, perform_eq]
    simp only [lastSet_cons]

/-! ### One request under a configuration -/

variable (b : Builder) (r : Request)

/-- The mapping of a builder resolves the condition and the order of a compiled query. -/
theorem buildUnchecked_eq :
    b.buildUnchecked r =
      { Query.ofRequest r with
        condition := b.mapping.elim (.ofRequest r) fun m => m.resolve (.ofRequest r)
        order := b.mapping.elim (.ofRequest r) fun m => m.resolveOrder (.ofRequest r)
        including := b.including
        selecting := b.selecting } := by
  rw [buildUnchecked]
  cases b.mapping <;> rfl

/-- A query is handed out unless its report has errors, and else all of these are. -/
theorem tryBuild_eq :
    b.tryBuild r =
      if (b.validate r).errors = [] then .ok (b.buildUnchecked r)
      else .error (.validationFailed (b.validate r).errorMessages) := by
  have h : b.tryBuild r = ((b.validate r).toExcept >>= fun _ => .ok (b.buildUnchecked r)) := rfl
  rw [h, Report.toExcept, Report.isValid]
  cases (b.validate r).errors with
  | nil => rfl
  | cons e rest => rfl

/-- Asked about one request in all four ways, a builder stays as it is. -/
theorem session_asking (rest : List Call) :
    b.session ([.validate r, .build r, .tryBuild r, .buildUnchecked r] ++ rest) =
      ((b.session rest).1,
        [ .report (b.validate r), .built (b.build r), .tried (b.tryBuild r),
          .query (b.buildUnchecked r) ] ++ (b.session rest).2) := rfl

/-! ### Sessions -/

/-- No call sets the specification and something else. -/
theorem setsSpecification_eq_false {call : Call}
    (h : call.mapping?.isSome ∨ call.including?.isSome ∨ call.selecting?.isSome) :
    call.setsSpecification = false := by
  cases call <;> simp_all [setsSpecification, specification?, mapping?, including?, selecting?]

/-- The specification is what the calls have set that set it. -/
theorem specification_session_filter (calls : List Call) :
    (empty.session (calls.filter setsSpecification)).1.specification =
      (empty.session calls).1.specification := by
  rw [session_eq, session_eq]
  exact lastSet_filter specification? (fun _ h => h) _ calls

/-- Everything else is what the other calls have set. -/
theorem session_filter_not (calls : List Call) :
    (empty.session (calls.filter fun call => !call.setsSpecification)).1 =
      (empty.session calls).1.setSpecification none := by
  -- one argument for the three things that the remaining calls set
  have hother {α : Type} {sets : Call → Option (Option α)}
      (h : ∀ call, (sets call).isSome → call.setsSpecification = false) :
      lastSet sets none (calls.filter fun call => !call.setsSpecification) =
        lastSet sets none calls :=
    lastSet_filter sets (fun call hcall => by rw [h call hcall]; rfl) none calls
  have hspecification : lastSet specification? none
      (calls.filter fun call => !call.setsSpecification) = none := by
    have hnone : (calls.filter fun call => !call.setsSpecification).filterMap specification? = [] := by
      simp [setsSpecification]
    rw [lastSet, hnone]
    rfl
  rw [session_eq, session_eq, empty, hspecification,
    hother fun _ h => setsSpecification_eq_false (.inl h),
    hother fun _ h => setsSpecification_eq_false (.inr (.inl h)),
    hother fun _ h => setsSpecification_eq_false (.inr (.inr h))]
  rfl

/-- **What a session answers** when a request comes: its report is the one under the specification
that was set last, its query is resolved by the mapping that was set last and carries what was set
last beside it, and the four ways of asking agree, leave the builder as it is and go on. The calls
that set the specification are all that a report needs, and the others all that a query needs. -/
theorem session_answers (calls : List Call) :
    let b := (empty.session calls).1
    (b.build r).report = r.validate (lastSet specification? none calls) ∧
    (b.build r).query =
      { Query.ofRequest r with
        condition := (lastSet mapping? none calls).elim (.ofRequest r) fun m =>
          m.resolve (.ofRequest r)
        order := (lastSet mapping? none calls).elim (.ofRequest r) fun m =>
          m.resolveOrder (.ofRequest r)
        including := lastSet including? none calls
        selecting := lastSet selecting? none calls } ∧
    b.buildUnchecked r = (b.build r).query ∧
    b.tryBuild r =
      (if (b.build r).report.errors = [] then .ok (b.build r).query
        else .error (.validationFailed (b.build r).report.errorMessages)) ∧
    (∀ rest, empty.session
        (calls ++ [.validate r, .build r, .tryBuild r, .buildUnchecked r] ++ rest) =
      ((b.session rest).1, (empty.session calls).2 ++
        [ .report (b.build r).report, .built (b.build r), .tried (b.tryBuild r),
          .query (b.build r).query ] ++ (b.session rest).2)) ∧
    ((empty.session (calls.filter setsSpecification)).1.build r).report = (b.build r).report ∧
    ((empty.session (calls.filter fun call => !call.setsSpecification)).1.build r).query =
      (b.build r).query := by
  intro b
  have hb : b = _ := session_eq empty calls
  refine ⟨?_, ?_, rfl, b.tryBuild_eq r, fun rest => ?_, ?_, ?_⟩
  · show r.validate b.specification = _
    rw [hb]
    rfl
  · show b.buildUnchecked r = _
    rw [buildUnchecked_eq, hb]
    rfl
  · rw [List.append_assoc, session_append, session_asking, ← List.append_assoc]
    rfl
  · exact congrArg r.validate (specification_session_filter calls)
  · show buildUnchecked _ r = _
    rw [session_filter_not, buildUnchecked_eq]
    exact (b.buildUnchecked_eq r).symm

end ListQuery.Builder
