import BlockData.Schema.Basic

/-!
# Runs of schemas

What one step may do to a block (`Action.exists_apply_eq`), and how a run goes through a part
of its steps, whatever follows: steps that let the schema go on add up, and a schema that has
stopped passes over all but final steps.
-/

namespace BlockData

/-- Taking the pending name leaves nothing pending. -/
theorem BlockState.takePending_eq (state : BlockState) :
    state.takePending = ⟨state.pending.getD state.identifier, state.properties, none⟩ := by
  rcases state with ⟨identifier, properties, pending⟩
  cases pending <;> rfl

/-! ## One step -/

namespace Action

/-- The name that a step finds for a block and leaves pending, if it finds one. -/
def found? (action : Action) (state : BlockState) : Option String :=
  match action with
  | .remapStates identifier replacements =>
    if state.identifier = identifier then
      state.properties.bind fun properties =>
        (replacements.find? (·.accepts properties)).bind (·.name.resolve? properties)
    else
      none
  | .renameIds renames => renames.get? state.identifier
  | .flatten identifier rule =>
    if state.identifier = identifier then state.properties.bind rule.resolve? else none
  | _ => none

/-- A step but the last one changes properties, leaves the name pending that it finds, and does
nothing else.  What was pending makes no difference to it. -/
theorem exists_apply_eq {action : Action} (h : action.isFinal = false) (state : BlockState) :
    ∃ (change : Properties → Properties) (signal : Signal), ∀ name,
      action.apply { state with pending := name } =
        (⟨state.identifier, state.properties.map change, (action.found? state).or name⟩,
          signal) := by
  rcases state with ⟨identifier, properties, pending⟩
  -- a step that changes properties does so for the block of its key alone
  have hchange : ∀ key f, ∃ change, ∀ name,
      (BlockState.mk identifier properties name).changeProperties key f =
        ⟨identifier, properties.map change, name⟩ := by
    intro key f
    by_cases hid : identifier = key
    · exact ⟨f, fun name => by simp [BlockState.changeProperties, hid]⟩
    · exact ⟨id, fun name => by simp [BlockState.changeProperties, hid]⟩
  cases action with
  | remapStates key replacements =>
    by_cases hid : identifier = key
    · cases properties with
      | none => exact ⟨id, .proceed, fun name => by simp [apply, BlockState.remap, found?, hid]⟩
      | some properties =>
        cases hfind : replacements.find? (·.accepts properties) with
        | none =>
          exact ⟨id, .proceed, fun name => by simp [apply, BlockState.remap, found?, hid, hfind]⟩
        | some replacement =>
          -- the only step that stops the schema
          exact ⟨replacement.result, .stop, fun name => by
            simp [apply, BlockState.remap, found?, hid, hfind]⟩
    · exact ⟨id, .proceed, fun name => by simp [apply, BlockState.remap, found?, hid]⟩
  | renameIds renames =>
    exact ⟨id, .proceed, fun name => by simp [apply, BlockState.renameId, found?]⟩
  | flatten key rule =>
    by_cases hid : identifier = key
    · cases properties with
      | none => exact ⟨id, .proceed, fun name => by simp [apply, BlockState.flatten, found?, hid]⟩
      | some properties =>
        cases hname : rule.resolve? properties with
        | none =>
          exact ⟨id, .proceed, fun name => by
            simp [apply, BlockState.flatten, found?, hid, hname]⟩
        | some found =>
          exact ⟨(·.erase rule.property), .proceed, fun name => by
            simp [apply, BlockState.flatten, found?, hid, hname]⟩
    · exact ⟨id, .proceed, fun name => by simp [apply, BlockState.flatten, found?, hid]⟩
  | addProperties key added =>
    obtain ⟨change, hchange⟩ := hchange key (·.insertAll added.entries)
    exact ⟨change, .proceed, fun name => by rw [apply, hchange]; rfl⟩
  | removeProperties key names =>
    obtain ⟨change, hchange⟩ := hchange key (Properties.eraseAll · names)
    exact ⟨change, .proceed, fun name => by rw [apply, hchange]; rfl⟩
  | remapValues key tables =>
    obtain ⟨change, hchange⟩ := hchange key (Properties.remapValues · tables)
    exact ⟨change, .proceed, fun name => by rw [apply, hchange]; rfl⟩
  | renameProperties key renames =>
    obtain ⟨change, hchange⟩ := hchange key (Properties.renameAll · renames)
    exact ⟨change, .proceed, fun name => by rw [apply, hchange]; rfl⟩
  | takeName => simp [isFinal] at h

/-- No step gives a block a place for properties, or takes it away. -/
theorem isSome_properties_apply (action : Action) (state : BlockState) :
    (action.apply state).1.properties.isSome = state.properties.isSome := by
  cases h : action.isFinal with
  | false =>
    obtain ⟨change, signal, happly⟩ := exists_apply_eq h state
    rw [happly state.pending, Option.isSome_map]
  | true =>
    cases action with
    | takeName => rw [apply, BlockState.takePending_eq]
    | _ => simp [isFinal] at h

end Action

namespace Schema

theorem isSome_properties_run (stopped : Bool) (actions : List Action) (state : BlockState) :
    (run stopped actions state).properties.isSome = state.properties.isSome := by
  induction actions generalizing stopped state with
  | nil => rfl
  | cons action rest ih =>
    rw [run]
    split
    · exact ih stopped state
    · exact (ih _ _).trans (action.isSome_properties_apply state)

/-! ## Parts of a run -/

/-- The last step is taken by every schema. -/
theorem run_takeName (stopped : Bool) (state : BlockState) :
    run stopped [.takeName] state = state.takePending := by
  cases stopped <;> rfl

/-- After a step that lets it, the schema goes on. -/
theorem run_cons_proceed {action : Action} {state next : BlockState}
    (h : action.apply state = (next, .proceed)) (rest : List Action) :
    run false (action :: rest) state = run false rest next := by
  simp only [run, Bool.false_and, Bool.false_eq_true, if_false, h]
  rfl

/-- After a step that says so, the schema has stopped. -/
theorem run_cons_stop {action : Action} {state next : BlockState}
    (h : action.apply state = (next, .stop)) (rest : List Action) :
    run false (action :: rest) state = run true rest next := by
  simp only [run, Bool.false_and, Bool.false_eq_true, if_false, h]
  rfl

/-- A schema that has stopped passes over steps that are not final. -/
theorem run_stopped_append {skipped : List Action} (h : ∀ action ∈ skipped, action.isFinal = false)
    (rest : List Action) (state : BlockState) :
    run true (skipped ++ rest) state = run true rest state := by
  induction skipped with
  | nil => rfl
  | cons action skipped ih =>
    rcases List.forall_mem_cons.1 h with ⟨hfirst, hskipped⟩
    simp only [List.cons_append, run, hfirst, Bool.not_false, Bool.and_self, if_true]
    exact ih hskipped

/-- Steps that let the schema go on have their effects one after the other. -/
theorem run_map_append {α : Type} {action : α → Action}
    {effect : BlockState → α → BlockState}
    (h : ∀ item state, (action item).apply state = (effect state item, .proceed))
    (items : List α) (rest : List Action) (state : BlockState) :
    run false (items.map action ++ rest) state = run false rest (items.foldl effect state) := by
  induction items generalizing state with
  | nil => rfl
  | cons item items ih =>
    rw [List.map_cons, List.cons_append, run_cons_proceed (h item state)]
    exact ih (effect state item)

/-- Steps that change nothing may be left out. -/
theorem run_append_of_apply_eq_self {actions : List Action} {state : BlockState}
    (h : ∀ action ∈ actions, action.apply state = (state, .proceed)) (rest : List Action) :
    run false (actions ++ rest) state = run false rest state := by
  induction actions with
  | nil => rfl
  | cons action actions ih =>
    rcases List.forall_mem_cons.1 h with ⟨hfirst, hrest⟩
    rw [List.cons_append, run_cons_proceed hfirst]
    exact ih hrest

end Schema
end BlockData
