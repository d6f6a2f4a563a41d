import ListQuery.Builder

/-!
# Sessions on a builder

A builder is configured and asked about requests in any order. A session is a sequence of such
calls on one builder, and leaves a builder behind and an answer to each call (`session`).

The other reading of a session keeps no builder: what counts for a thing that is configured is the
last call that set it, or took it away (`lastSet`).
-/

namespace ListQuery.Builder

/-- A call on a builder. -/
inductive Call where
  | withSpecification (s : Specification)
  | setSpecification (s : Option Specification)
  | withMapping (m : Mapping)
  | setMapping (m : Option Mapping)
  | withIncluding (value : Json)
  | withSelecting (value : Json)
  | validate (r : Request)
  | build (r : Request)
  | tryBuild (r : Request)
  | buildUnchecked (r : Request)

/-- What a call is answered by. -/
inductive Answer where
  /-- Something is configured, and there is nothing to say about it. -/
  | configured
  | report (r : Report)
  | built (r : BuildResult)
  | tried (q : Except QueryError Query)
  | query (q : Query)

/-- The builder after a call, and the answer. -/
def perform (b : Builder) : Call → Builder × Answer
  | .withSpecification s => (b.withSpecification s, .configured)
  | .setSpecification s => (b.setSpecification s, .configured)
  | .withMapping m => (b.withMapping m, .configured)
  | .setMapping m => (b.setMapping m, .configured)
  | .withIncluding value => (b.withIncluding value, .configured)
  | .withSelecting value => (b.withSelecting value, .configured)
  | .validate r => (b, .report (b.validate r))
  | .build r => (b, .built (b.build r))
  | .tryBuild r => (b, .tried (b.tryBuild r))
  | .buildUnchecked r => (b, .query (b.buildUnchecked r))

/-- The builder after a sequence of calls, and the answers in order. -/
def session (b : Builder) : List Call → Builder × List Answer
  | [] => (b, [])
  | call :: rest =>
    let (b, answer) := b.perform call
    let (b, answers) := b.session rest
    (b, answer :: answers)

theorem session_cons (b : Builder) (call : Call) (rest : List Call) :
    b.session (call :: rest) =
      (((b.perform call).1.session rest).1,
        (b.perform call).2 :: ((b.perform call).1.session rest).2) := rfl

/-- The second part of a session goes on with the builder that the first part leaves. -/
theorem session_append (b : Builder) (first second : List Call) :
    b.session (first ++ second) =
      (((b.session first).1.session second).1,
        (b.session first).2 ++ ((b.session first).1.session second).2) := by
  induction first generalizing b with
  | nil => rfl
  | cons call rest ih => rw [List.cons_append, session_cons, ih, session_cons, List.cons_append]

/-! ### What was set last -/

namespace Call

/-- What a call sets the specification to, if it does. -/
def specification? : Call → Option (Option Specification)
  | .withSpecification s => some (some s)
  | .setSpecification s => some s
  | _ => none

/-- A call that sets the specification. -/
def setsSpecification (call : Call) : Bool := call.specification?.isSome

/-- What a call sets the mapping to, if it does. -/
def mapping? : Call → Option (Option Mapping)
  | .withMapping m => some (some m)
  | .setMapping m => some m
  | _ => none

/-- What a call says to load with each row, if it does. -/
def including? : Call → Option (Option Json)
  | .withIncluding value => some (some value)
  | _ => none

/-- Which columns a call says to load, if it does. -/
def selecting? : Call → Option (Option Json)
  | .withSelecting value => some (some value)
  | _ => none

end Call

variable {α : Type} (sets : Call → Option (Option α))

/-- What the last of the calls that set a thing has set it to; `initial` if there was no such call. -/
def lastSet (initial : Option α) (calls : List Call) : Option α :=
  (calls.filterMap sets).getLast?.getD initial

@[simp] theorem lastSet_nil (initial : Option α) : lastSet sets initial [] = initial := rfl

/-- A call counts as what was there before the calls that follow it. -/
@[simp] theorem lastSet_cons (initial : Option α) (call : Call) (rest : List Call) :
    lastSet sets initial (call :: rest) = lastSet sets ((sets call).getD initial) rest := by
  cases h : sets call with
  | none => rw [lastSet, List.filterMap_cons_none h]; rfl
  | some value =>
    rw [lastSet, List.filterMap_cons_some h, List.getLast?_cons]
    rfl

/-- Calls that set other things do not matter. -/
theorem lastSet_filter {keep : Call → Bool} (h : ∀ call, (sets call).isSome → keep call = true)
    (initial : Option α) (calls : List Call) :
    lastSet sets initial (calls.filter keep) = lastSet sets initial calls := by
  have hsets : (fun call => if keep call = true then sets call else none) = sets := by
    funext call
    by_cases hkeep : keep call = true
    · rw [if_pos hkeep]
    · rw [if_neg hkeep, Option.not_isSome_iff_eq_none.1 fun hsome => hkeep (h call hsome)]
  rw [lastSet, List.filterMap_filter, hsets, lastSet]

end ListQuery.Builder
