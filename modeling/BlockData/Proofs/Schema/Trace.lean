import BlockData.Proofs.Schema.Run

/-!
# Traces of runs

The steps that a run of a schema takes, each with the block state that it finds, and the names
that they find for the block.

* `run_eq_foldl_trace`: a run is the steps of its trace, one after the other;
* `run_append` and `trace_append` cut runs into parts;
* `lastFound` is the name that counts.
-/

namespace BlockData

namespace Schema

/-! ## Steps of a run -/

/-- A step that a run takes, and the block state that it finds. -/
structure Step where
  action : Action
  before : BlockState
  deriving DecidableEq, Repr

namespace Step

/-- The name that the step finds. -/
def found? (step : Step) : Option String :=
  step.action.found? step.before

/-- Whether the schema goes on after the step. -/
def signal (step : Step) : Signal :=
  (step.action.apply step.before).2

end Step

/-- The steps that a run takes, in order. -/
def trace (stopped : Bool) : List Action → BlockState → List Step
  | [], _ => []
  | action :: rest, state =>
    if stopped && !action.isFinal then
      trace stopped rest state
    else
      ⟨action, state⟩ ::
        trace (stopped || (action.apply state).2 == .stop) rest (action.apply state).1

/-! What a run does with its first step. -/

section

variable {stopped : Bool} {action : Action} (rest : List Action) (state : BlockState)

theorem run_cons_skipped (h : stopped && !action.isFinal) :
    run stopped (action :: rest) state = run stopped rest state := by
  rw [run, if_pos h]

theorem run_cons_taken (h : ¬ (stopped && !action.isFinal)) :
    run stopped (action :: rest) state =
      run (stopped || (action.apply state).2 == .stop) rest (action.apply state).1 := by
  rw [run, if_neg h]

theorem trace_cons_skipped (h : stopped && !action.isFinal) :
    trace stopped (action :: rest) state = trace stopped rest state := by
  rw [trace, if_pos h]

theorem trace_cons_taken (h : ¬ (stopped && !action.isFinal)) :
    trace stopped (action :: rest) state =
      ⟨action, state⟩ ::
        trace (stopped || (action.apply state).2 == .stop) rest (action.apply state).1 := by
  rw [trace, if_neg h]

end

/-- A run is the steps that it takes, one after the other. -/
theorem run_eq_foldl_trace (stopped : Bool) (actions : List Action) (state : BlockState) :
    run stopped actions state =
      (trace stopped actions state).foldl (fun state step => (step.action.apply state).1)
        state := by
  induction actions generalizing stopped state with
  | nil => rfl
  | cons action rest ih =>
    by_cases hskip : stopped && !action.isFinal
    · rw [run_cons_skipped _ _ hskip, trace_cons_skipped _ _ hskip, ih]
    · rw [run_cons_taken _ _ hskip, trace_cons_taken _ _ hskip, ih, List.foldl_cons]

/-- The name that the last step with a name has found. -/
def lastFound (steps : List Step) : Option String :=
  (steps.filterMap Step.found?).getLast?

/-- Whether a schema has stopped after some steps. -/
def stopsIn (stopped : Bool) (steps : List Step) : Bool :=
  stopped || steps.any (·.signal == .stop)

theorem lastFound_cons (step : Step) (steps : List Step) :
    lastFound (step :: steps) = (lastFound steps).or step.found? := by
  unfold lastFound
  cases hfound : step.found? with
  | none => simp [hfound]
  | some name =>
    rw [List.filterMap_cons_some hfound, List.getLast?_cons]
    cases (steps.filterMap Step.found?).getLast? <;> rfl

theorem lastFound_append (first second : List Step) :
    lastFound (first ++ second) = (lastFound second).or (lastFound first) := by
  simp only [lastFound, List.filterMap_append, List.getLast?_append]

/-- Some step has found a name if the last such step has one. -/
theorem isSome_lastFound_iff (steps : List Step) :
    (lastFound steps).isSome ↔ ∃ step ∈ steps, step.found?.isSome := by
  induction steps with
  | nil => simp [lastFound]
  | cons step steps ih => rw [lastFound_cons, Option.isSome_or, Bool.or_eq_true, ih]; simp [or_comm]

variable {actions : List Action}

/-- The steps of a run are among those of the schema. -/
theorem action_mem_of_mem_trace {stopped : Bool} {state : BlockState} {step : Step}
    (h : step ∈ trace stopped actions state) : step.action ∈ actions := by
  induction actions generalizing stopped state with
  | nil => simp [trace] at h
  | cons action rest ih =>
    by_cases hskip : stopped && !action.isFinal
    · rw [trace_cons_skipped rest state hskip] at h
      exact List.mem_cons_of_mem _ (ih h)
    · rw [trace_cons_taken rest state hskip] at h
      rcases List.mem_cons.1 h with rfl | hrest
      · exact List.mem_cons_self
      · exact List.mem_cons_of_mem _ (ih hrest)

/-- A run goes on with more steps from where it is, if it has not stopped. -/
theorem run_append (stopped : Bool) (first second : List Action) (state : BlockState) :
    run stopped (first ++ second) state =
      run (stopsIn stopped (trace stopped first state)) second (run stopped first state) := by
  induction first generalizing stopped state with
  | nil => simp [trace, run, stopsIn]
  | cons action rest ih =>
    rw [List.cons_append]
    by_cases hskip : stopped && !action.isFinal
    · rw [run_cons_skipped _ _ hskip, run_cons_skipped _ _ hskip, trace_cons_skipped _ _ hskip, ih]
    · rw [run_cons_taken _ _ hskip, run_cons_taken _ _ hskip, trace_cons_taken _ _ hskip, ih]
      simp only [stopsIn, List.any_cons, Step.signal, Bool.or_assoc]

theorem trace_append (stopped : Bool) (first second : List Action) (state : BlockState) :
    trace stopped (first ++ second) state =
      trace stopped first state ++
        trace (stopsIn stopped (trace stopped first state)) second (run stopped first state) := by
  induction first generalizing stopped state with
  | nil => simp [trace, run, stopsIn]
  | cons action rest ih =>
    rw [List.cons_append]
    by_cases hskip : stopped && !action.isFinal
    · rw [run_cons_skipped _ _ hskip, trace_cons_skipped _ _ hskip, trace_cons_skipped _ _ hskip,
        ih]
    · rw [run_cons_taken _ _ hskip, trace_cons_taken _ _ hskip, trace_cons_taken _ _ hskip, ih]
      simp only [List.cons_append, stopsIn, List.any_cons, Step.signal, Bool.or_assoc]

/-- The steps that a schema takes on a block state. -/
def taken (schema : Schema) (state : BlockState) : List Step :=
  trace false schema.actions state

theorem run_append_takeName (stopped : Bool) (actions : List Action) (state : BlockState) :
    run stopped (actions ++ [.takeName]) state = (run stopped actions state).takePending := by
  rw [run_append, run_takeName]

theorem trace_append_takeName (stopped : Bool) (actions : List Action) (state : BlockState) :
    trace stopped (actions ++ [.takeName]) state =
      trace stopped actions state ++ [⟨.takeName, run stopped actions state⟩] := by
  rw [trace_append]
  cases stopsIn stopped (trace stopped actions state) <;> rfl

end Schema
end BlockData
