import BlockData.Proofs.Schema.Effect
import BlockData.Proofs.Schema.Lowercase
import BlockData.Proofs.Schema.Trace

/-!
# Names that are pending

While a schema runs, names only go into the place for the pending one.  No step but the last
reads that place, so that neither the properties nor the way through the steps depend on it.

* `Action.apply_withPending` says that the name that a step finds, and what was pending before,
  is all that there is to the pending name;
* `run_withPending` and `trace_withPending` are about whole runs;
* `pending_names_are_isolated` puts this together, with what it means for the section of new
  identifiers.
-/

namespace BlockData

/-! ## One step -/

namespace Action

/-- Steps but the last one do not rename the block. -/
theorem identifier_apply {action : Action} (h : action.isFinal = false) (state : BlockState) :
    (action.apply state).1.identifier = state.identifier := by
  obtain ⟨change, signal, happly⟩ := exists_apply_eq h state
  rw [happly state.pending]

/-- What is pending before a step but the last one is pending after it unless the step finds a
name, and makes no other difference. -/
theorem apply_withPending {action : Action} (h : action.isFinal = false) (state : BlockState)
    (name : Option String) :
    action.apply { state with pending := name } =
      ({ (action.apply state).1 with pending := (action.found? state).or name },
        (action.apply state).2) := by
  obtain ⟨change, signal, happly⟩ := exists_apply_eq h state
  rw [happly name, happly state.pending]

/-- A step but the last one leaves the name pending that it finds, or else what was pending. -/
theorem pending_apply {action : Action} (h : action.isFinal = false) (state : BlockState) :
    (action.apply state).1.pending = (action.found? state).or state.pending :=
  congrArg (·.1.pending) (apply_withPending h state state.pending)

/-- The signal of a step does not depend on what is pending. -/
theorem signal_apply_withPending (action : Action) (state : BlockState) (name : Option String) :
    (action.apply { state with pending := name }).2 = (action.apply state).2 := by
  cases h : action.isFinal with
  | false => rw [apply_withPending h]
  | true =>
    cases action with
    | takeName => rfl
    | _ => simp [isFinal] at h

end Action

namespace Schema

namespace Step

/-- The step, whatever was pending when it was taken. -/
def unnamed (step : Step) : Step :=
  { step with before := { step.before with pending := none } }

@[simp] theorem found?_unnamed (step : Step) : step.unnamed.found? = step.found? := by
  rcases step with ⟨action, before⟩
  cases action <;> rfl

@[simp] theorem signal_unnamed (step : Step) : step.unnamed.signal = step.signal :=
  step.action.signal_apply_withPending step.before none

end Step

variable {actions : List Action}

/-! ## Runs before the last step -/

/-- No step before the last one renames the block. -/
theorem identifier_run (h : ∀ action ∈ actions, action.isFinal = false) (stopped : Bool)
    (state : BlockState) : (run stopped actions state).identifier = state.identifier := by
  induction actions generalizing stopped state with
  | nil => rfl
  | cons action rest ih =>
    rcases List.forall_mem_cons.1 h with ⟨haction, hrest⟩
    by_cases hskip : stopped && !action.isFinal
    · rw [run_cons_skipped rest state hskip]
      exact ih hrest stopped state
    · rw [run_cons_taken rest state hskip]
      exact (ih hrest _ _).trans (Action.identifier_apply haction state)

/-- All steps before the last one find the block under its first identifier. -/
theorem identifier_of_mem_trace (h : ∀ action ∈ actions, action.isFinal = false)
    {stopped : Bool} {state : BlockState} {step : Step}
    (hstep : step ∈ trace stopped actions state) :
    step.before.identifier = state.identifier := by
  induction actions generalizing stopped state with
  | nil => simp [trace] at hstep
  | cons action rest ih =>
    rcases List.forall_mem_cons.1 h with ⟨haction, hrest⟩
    by_cases hskip : stopped && !action.isFinal
    · rw [trace_cons_skipped rest state hskip] at hstep
      exact ih hrest hstep
    · rw [trace_cons_taken rest state hskip] at hstep
      rcases List.mem_cons.1 hstep with rfl | htail
      · rfl
      · exact (ih hrest htail).trans (Action.identifier_apply haction state)

/-- What is pending makes no difference to the steps before the last one. -/
theorem trace_withPending (h : ∀ action ∈ actions, action.isFinal = false) (stopped : Bool)
    (state : BlockState) (name : Option String) :
    (trace stopped actions { state with pending := name }).map Step.unnamed =
      (trace stopped actions state).map Step.unnamed := by
  induction actions generalizing stopped state name with
  | nil => rfl
  | cons action rest ih =>
    rcases List.forall_mem_cons.1 h with ⟨haction, hrest⟩
    by_cases hskip : stopped && !action.isFinal
    · rw [trace_cons_skipped rest _ hskip, trace_cons_skipped rest _ hskip]
      exact ih hrest stopped state name
    · rw [trace_cons_taken rest _ hskip, trace_cons_taken rest _ hskip,
        Action.apply_withPending haction, List.map_cons, List.map_cons, ih hrest]
      rfl

/-- Steps before the last one leave the last name pending that they find, or else what was
pending, and this makes no other difference. -/
theorem run_withPending (h : ∀ action ∈ actions, action.isFinal = false) (stopped : Bool)
    (state : BlockState) (name : Option String) :
    run stopped actions { state with pending := name } =
      { run stopped actions state with
        pending := (lastFound (trace stopped actions state)).or name } := by
  induction actions generalizing stopped state name with
  | nil => rfl
  | cons action rest ih =>
    rcases List.forall_mem_cons.1 h with ⟨haction, hrest⟩
    by_cases hskip : stopped && !action.isFinal
    · rw [run_cons_skipped rest _ hskip, run_cons_skipped rest _ hskip,
        trace_cons_skipped rest _ hskip]
      exact ih hrest stopped state name
    · rw [run_cons_taken rest _ hskip, run_cons_taken rest _ hskip, trace_cons_taken rest _ hskip,
        Action.apply_withPending haction, ih hrest, lastFound_cons, Option.or_assoc]
      rfl

theorem lastFound_trace_withPending (h : ∀ action ∈ actions, action.isFinal = false)
    (stopped : Bool) (state : BlockState) (name : Option String) :
    lastFound (trace stopped actions { state with pending := name }) =
      lastFound (trace stopped actions state) := by
  have hunnamed : ∀ steps : List Step, lastFound (steps.map Step.unnamed) = lastFound steps := by
    intro steps
    simp only [lastFound, List.filterMap_map, Function.comp_def, Step.found?_unnamed]
  rw [← hunnamed, trace_withPending h, hunnamed]

/-! ## Whole schemas -/

/-- The last step of a compiled schema is its only final one. -/
theorem FromDocument.actions_eq {schema : Schema} (h : schema.FromDocument) :
    ∃ actions : List Action, schema.actions = actions ++ [.takeName] ∧
      ∀ action ∈ actions, action.isFinal = false := by
  rcases h with ⟨document, hcompile⟩
  have hactions : schema.actions = document.steps :=
    congrArg Schema.actions (RuleDocument.compile_eq_ok_iff.1 hcompile).2
  refine ⟨_, hactions, ?_⟩
  intro action haction
  rcases List.mem_append.1 haction with hstate | hrest
  · exact RuleDocument.isFinal_of_mem_stateSteps hstate
  · rcases List.mem_append.1 hrest with hids | hproperties
    · exact RuleDocument.isFinal_of_mem_compileRenamedIds hids
    · exact RuleDocument.isFinal_of_mem_propertySteps hproperties

/-- A block is called by the last name that a step has found, or else by the one that was
pending, or as before. -/
theorem FromDocument.identifier_apply {schema : Schema} (h : schema.FromDocument)
    (state : BlockState) : (schema.apply state).identifier =
      ((lastFound (schema.taken state)).or state.pending).getD state.identifier := by
  rcases h.actions_eq with ⟨actions, hactions, hfinal⟩
  have hfound : lastFound (schema.taken state) = lastFound (trace false actions state) := by
    rw [taken, hactions, trace_append_takeName, lastFound_append]
    rfl
  have hpending : (run false actions state).pending =
      (lastFound (trace false actions state)).or state.pending :=
    congrArg BlockState.pending (run_withPending hfinal false state state.pending)
  rw [apply, hactions, run_append_takeName, BlockState.takePending_eq, hfound, hpending,
    identifier_run hfinal]

/-- What is pending makes no difference to the signals of a schema, nor to the properties that
it leaves. -/
theorem FromDocument.apply_withPending {schema : Schema} (h : schema.FromDocument)
    (state : BlockState) (name : Option String) :
    (schema.taken { state with pending := name }).map Step.signal =
        (schema.taken state).map Step.signal ∧
      (schema.apply { state with pending := name }).properties =
        (schema.apply state).properties := by
  rcases h.actions_eq with ⟨actions, hactions, hfinal⟩
  constructor
  · have hsignals : ∀ steps : List Step,
        (steps.map Step.unnamed).map Step.signal = steps.map Step.signal := by
      intro steps
      simp [Function.comp_def]
    rw [taken, taken, hactions, trace_append_takeName, trace_append_takeName, List.map_append,
      List.map_append, ← hsignals, trace_withPending hfinal, hsignals]
    rfl
  · rw [apply, apply, hactions, run_append_takeName, run_append_takeName,
      run_withPending hfinal, BlockState.takePending_eq, BlockState.takePending_eq]

end Schema

/-! ## New identifiers -/

/-- A state rule that gives a name has stopped the schema. -/
theorem Action.signal_remapStates {identifier : String} {replacements : List Replacement}
    {state : BlockState} (h : ((remapStates identifier replacements).found? state).isSome) :
    ((remapStates identifier replacements).apply state).2 = .stop := by
  rcases state with ⟨id, properties, pending⟩
  by_cases hid : id = identifier
  · cases properties with
    | none => simp [found?, hid] at h
    | some properties =>
      cases hfind : replacements.find? (·.accepts properties) with
      | none => simp [found?, hid, hfind] at h
      | some replacement => simp [apply, BlockState.remap, hid, hfind]
  · simp [found?, hid] at h

namespace RuleDocument

open Schema

/-- A step of a run of state rules that gives a name has stopped the schema. -/
theorem stopsIn_of_found {document : RuleDocument} {state : BlockState} {step : Step}
    (hstep : step ∈ trace false document.stateSteps state) (hfound : step.found?.isSome) :
    stopsIn false (trace false document.stateSteps state) = true := by
  have hsignal : step.signal = .stop := by
    rcases step with ⟨action, before⟩
    rcases List.mem_map.1 (action_mem_of_mem_trace hstep) with ⟨pair, -, rfl⟩
    exact Action.signal_remapStates hfound
  simpa [stopsIn] using ⟨step, hstep, hsignal⟩

/-- After a state rule that accepts a block, only the last step is left. -/
theorem run_steps_of_stopped {document : RuleDocument} {state : BlockState}
    (h : stopsIn false (trace false document.stateSteps state) = true) :
    run false document.steps state = (run false document.stateSteps state).takePending := by
  have hskip : ∀ action ∈ compileRenamedIds document.renamedIds ++ document.propertySteps,
      action.isFinal = false := by
    intro action haction
    rcases List.mem_append.1 haction with hids | hproperties
    · exact isFinal_of_mem_compileRenamedIds hids
    · exact isFinal_of_mem_propertySteps hproperties
  rw [steps, List.append_assoc, run_append, h, run_stopped_append hskip, run_takeName]

/-- Without such a rule the new identifier is what is pending when the sections on properties
begin, and nothing but that. -/
theorem run_steps_of_not_stopped {document : RuleDocument} {state : BlockState}
    (h : stopsIn false (trace false document.stateSteps state) = false) :
    let before := run false document.stateSteps state
    let after := run false document.propertySteps before
    let found := lastFound (trace false document.propertySteps before)
    run false document.steps state =
      ⟨(found.or ((document.newId? before.identifier).or before.pending)).getD after.identifier,
        after.properties, none⟩ := by
  intro before after found
  rw [steps, List.append_assoc, List.append_assoc, run_append, h, run_compileRenamedIds,
    run_append_takeName, run_withPending fun _ => isFinal_of_mem_propertySteps,
    BlockState.takePending_eq]

/-- If a step other than that of the new identifiers has found a name, and no state rule has
stopped the schema, the name was found in the sections on properties. -/
theorem isSome_lastFound_propertySteps {document : RuleDocument} {state : BlockState}
    (h : stopsIn false (trace false document.stateSteps state) = false) {step : Step}
    (hstep : step ∈ trace false document.steps state)
    (hcategory : step.action.category ≠ "renamedIds") (hfound : step.found?.isSome) :
    (lastFound (trace false document.propertySteps
      (run false document.stateSteps state))).isSome := by
  generalize hbefore : run false document.stateSteps state = before
  have hids : run false (compileRenamedIds document.renamedIds) before =
      { before with pending := (document.newId? before.identifier).or before.pending } := by
    have hrun := run_compileRenamedIds document [] before
    rwa [List.append_nil] at hrun
  -- only a state rule stops the schema
  have hgoes : stopsIn false (trace false (compileRenamedIds document.renamedIds) before) =
      false := by
    unfold compileRenamedIds
    split <;> rfl
  rw [steps, trace_append_takeName, trace_append, trace_append, h, hbefore, hgoes, hids] at hstep
  simp only [List.mem_append, List.mem_singleton] at hstep
  rcases hstep with (hstate | hid | hproperty) | hlast
  · -- a state rule that finds a name would have stopped it
    simp [stopsIn_of_found hstate hfound] at h
  · -- the step of the new identifiers is left out of account
    have hmem := action_mem_of_mem_trace hid
    unfold compileRenamedIds at hmem
    split at hmem
    · simp at hmem
    · rw [List.mem_singleton.1 hmem] at hcategory
      exact absurd rfl hcategory
  · rw [← lastFound_trace_withPending (fun _ => isFinal_of_mem_propertySteps) false before,
      isSome_lastFound_iff]
    exact ⟨step, hproperty, hfound⟩
  · rw [hlast] at hfound
    simp [Step.found?, Action.found?] at hfound

/-- New identifiers make no difference to properties, nor to the name of a block for which a
state rule or a flattened property gives one. -/
theorem run_steps_withRenamedIds (document : RuleDocument) (renamedIds : Dict String)
    (state : BlockState) :
    let other : RuleDocument := { document with renamedIds := renamedIds }
    (run false other.steps state).properties = (run false document.steps state).properties ∧
      ((∃ step ∈ trace false document.steps state,
          step.action.category ≠ "renamedIds" ∧ step.found?.isSome) →
        (run false other.steps state).identifier =
          (run false document.steps state).identifier) := by
  intro other
  have hstates : other.stateSteps = document.stateSteps := rfl
  have hproperties : other.propertySteps = document.propertySteps := rfl
  cases hstop : stopsIn false (trace false document.stateSteps state) with
  | true =>
    -- the section of new identifiers is passed over in both runs
    rw [run_steps_of_stopped hstop, run_steps_of_stopped (hstates ▸ hstop), hstates]
    exact ⟨rfl, fun _ => rfl⟩
  | false =>
    rw [run_steps_of_not_stopped hstop, run_steps_of_not_stopped (hstates ▸ hstop), hstates,
      hproperties]
    refine ⟨rfl, ?_⟩
    rintro ⟨step, hstep, hcategory, hfound⟩
    have hname := isSome_lastFound_propertySteps hstop hstep hcategory hfound
    rcases Option.isSome_iff_exists.1 hname with ⟨name, hname⟩
    simp only [hname, Option.some_or]

end RuleDocument

/-! ## Isolation -/

open Schema in
/-- Names that are pending are kept apart from all else.  The steps of a compiled schema find the
block under its first identifier, up to the last step, which gives it the last name that was
found, or else the one that was pending, or leaves it as it is.  What is pending at the start
makes no difference to signals and properties, and neither does the section of new identifiers,
which does not matter to the name either if a state rule or a flattened property gives one. -/
theorem pending_names_are_isolated :
    (∀ schema : Schema, schema.FromDocument → ∀ state : BlockState,
      (∃ steps before, schema.taken state = steps ++ [⟨.takeName, before⟩] ∧
        before.identifier = state.identifier ∧
        ∀ step ∈ steps, step.action.isFinal = false ∧
          step.before.identifier = state.identifier ∧
          (step.action.apply step.before).1.pending = step.found?.or step.before.pending) ∧
      (schema.apply state).identifier =
        ((lastFound (schema.taken state)).or state.pending).getD state.identifier ∧
      ∀ name : Option String,
        (schema.taken { state with pending := name }).map Step.signal =
          (schema.taken state).map Step.signal ∧
        (schema.apply { state with pending := name }).properties =
          (schema.apply state).properties) ∧
    (∀ (document : RuleDocument) (renamedIds : Dict String) (schema other : Schema),
      document.compile = .ok schema →
      RuleDocument.compile { document with renamedIds := renamedIds } = .ok other →
      ∀ state : BlockState,
        (other.apply state).properties = (schema.apply state).properties ∧
        ((∃ step ∈ schema.taken state,
            (step.action.category = "remappedStates" ∨
              step.action.category = "flattenedProperties") ∧ step.found?.isSome) →
          (other.apply state).identifier = (schema.apply state).identifier)) := by
  constructor
  · intro schema h state
    refine ⟨?_, h.identifier_apply state, h.apply_withPending state⟩
    -- all steps but the last one leave the identifier alone
    rcases h.actions_eq with ⟨actions, hactions, hfinal⟩
    refine ⟨trace false actions state, run false actions state, ?_, identifier_run hfinal _ _, ?_⟩
    · rw [taken, hactions, trace_append_takeName]
    · intro step hstep
      have hstepFinal := hfinal step.action (action_mem_of_mem_trace hstep)
      exact ⟨hstepFinal, identifier_of_mem_trace hfinal hstep, Action.pending_apply hstepFinal _⟩
  · intro document renamedIds schema other hcompile hother state
    obtain ⟨-, rfl⟩ := RuleDocument.compile_eq_ok_iff.1 hcompile
    obtain ⟨-, rfl⟩ := RuleDocument.compile_eq_ok_iff.1 hother
    rcases document.run_steps_withRenamedIds renamedIds state with ⟨hproperties, hidentifier⟩
    refine ⟨hproperties, ?_⟩
    rintro ⟨step, hstep, hcategory, hfound⟩
    -- the two categories with names of their own
    refine hidentifier ⟨step, hstep, ?_, hfound⟩
    rcases hcategory with heq | heq
    · rw [heq]
      decide
    · rw [heq]
      decide

open Schema in
/-- An oak log, for which new identifiers and a flattened property have names, and a pine log,
for which a state rule has one. -/
theorem pending_names_of_logs_are_isolated :
    let oak : BlockState :=
      ⟨"x:log", some (.ofList [("kind", .string "oak"), ("side", .int 0)]), some "x:p"⟩
    let pine : BlockState := ⟨"x:log", some (.ofList [("kind", .string "pine")]), none⟩
    ∃ schema other, logDocument.compile = .ok schema ∧
      RuleDocument.compile { logDocument with renamedIds := .ofList [("X:Log", "X:Beam")] } =
        .ok other ∧
      (schema.taken oak).filterMap Step.found? = ["x:trunk", "x:birch_log"] ∧
      (schema.apply oak).identifier = "x:birch_log" ∧
      (schema.apply { oak with pending := none }).properties = (schema.apply oak).properties ∧
      (other.apply oak).identifier = (schema.apply oak).identifier ∧
      (other.apply pine).identifier = (schema.apply pine).identifier ∧
      (schema.taken pine).map Step.signal = [.stop, .proceed] := by
  intro oak pine
  have h := pending_names_are_isolated
  refine ⟨_, _, rfl, rfl, by decide +kernel, by decide +kernel, ?_, ?_, ?_, by decide +kernel⟩
  · exact ((h.1 _ ⟨logDocument, rfl⟩ oak).2.2 none).2
  · exact (h.2 logDocument _ _ _ rfl rfl oak).2 (by decide +kernel)
  · exact (h.2 logDocument _ _ _ rfl rfl pine).2 (by decide +kernel)

end BlockData
