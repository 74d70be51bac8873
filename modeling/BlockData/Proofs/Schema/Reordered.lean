import BlockData.Proofs.Dict.Reordered
import BlockData.Schema.Basic

/-!
# Schemas and the order of properties

What a schema does to a block depends on the values of its properties and not on their order.
Two blocks that differ in that order alone get the same signal from every action
(`BlockState.Reordered.apply`), so that all steps of a schema keep them so
(`BlockState.Reordered.run`).
-/

namespace BlockData

/-! ## Operations on properties -/

namespace Properties

variable {p q : Properties}

/-- The value of a property is changed in both, or in neither. -/
theorem reordered_remapValue (h : p.Reordered q) (name : String) (table : List ValueChange) :
    (remapValue p name table).Reordered (remapValue q name table) := by
  unfold remapValue
  rw [h.get?_eq]
  cases (q.get? name).bind (ValueChange.lookup? table) with
  | none => exact h
  | some value => exact h.insert name value

theorem reordered_remapValues (h : p.Reordered q) (tables : Dict (List ValueChange)) :
    (remapValues p tables).Reordered (remapValues q tables) :=
  List.foldl_rel h fun entry _ _ _ hrel => reordered_remapValue hrel entry.1 entry.2

/-- The value under the old name goes to the new one in both, at whatever place. -/
theorem reordered_rename (h : p.Reordered q) (old new : String) :
    (rename p old new).Reordered (rename q old new) := by
  unfold rename
  rw [h.get?_eq]
  cases q.get? old with
  | none => exact h
  | some value =>
    have herased := h.erase old
    exact herased.insert new value

theorem reordered_renameAll (h : p.Reordered q) (renames : Dict String) :
    (renameAll p renames).Reordered (renameAll q renames) :=
  List.foldl_rel h fun entry _ _ _ hrel => reordered_rename hrel entry.1 entry.2

theorem reordered_eraseAll (h : p.Reordered q) (names : List String) :
    (eraseAll p names).Reordered (eraseAll q names) :=
  List.foldl_rel h fun name _ _ _ hrel => hrel.erase name

end Properties

/-! ## Names and replacements -/

theorem Flattening.resolve?_congr (rule : Flattening) {p q : Properties} (h : p.Reordered q) :
    rule.resolve? p = rule.resolve? q := by
  unfold Flattening.resolve?
  rw [h.get?_eq]

theorem NewName.resolve?_congr (name : NewName) {p q : Properties} (h : p.Reordered q) :
    name.resolve? p = name.resolve? q := by
  cases name with
  | literal name => rfl
  | flattened rule => exact rule.resolve?_congr h

theorem Replacement.accepts_congr (r : Replacement) {p q : Properties} (h : p.Reordered q) :
    r.accepts p = r.accepts q := by
  unfold Replacement.accepts
  simp only [h.get?_eq]

/-- A replaced state has its properties in the order of the rule. -/
theorem Replacement.result_congr (r : Replacement) {p q : Properties} (h : p.Reordered q) :
    r.result p = r.result q := by
  unfold Replacement.result
  simp only [h.get?_eq]

/-- The first replacement that accepts is the same one. -/
theorem find?_accepts_congr (replacements : List Replacement) {p q : Properties}
    (h : p.Reordered q) :
    replacements.find? (·.accepts p) = replacements.find? (·.accepts q) := by
  have hsame : (fun r : Replacement => r.accepts p) = fun r => r.accepts q := by
    funext r
    exact r.accepts_congr h
  rw [hsame]

/-! ## Blocks -/

namespace BlockState

/-- Two blocks that differ at most in the order of their properties. -/
structure Reordered (state other : BlockState) : Prop where
  identifier : state.identifier = other.identifier
  properties : Option.Rel Dict.Reordered state.properties other.properties
  pending : state.pending = other.pending

namespace Reordered

variable {state other : BlockState}

theorem refl (state : BlockState) : state.Reordered state where
  identifier := rfl
  properties := by
    cases state.properties with
    | none => exact .none
    | some p => exact .some (.refl p)
  pending := rfl

theorem changeProperties (h : state.Reordered other) (identifier : String)
    {change : Properties → Properties}
    (hchange : ∀ p q, p.Reordered q → (change p).Reordered (change q)) :
    (state.changeProperties identifier change).Reordered
      (other.changeProperties identifier change) := by
  unfold BlockState.changeProperties
  rw [h.identifier]
  split
  · refine ⟨rfl, ?_, h.pending⟩
    rcases rel_cases h.properties with ⟨hp, hq⟩ | ⟨p, q, hp, hq, hpq⟩
    · rw [hp, hq]
      exact .none
    · rw [hp, hq]
      exact .some (hchange p q hpq)
  · exact h

theorem remap (h : state.Reordered other) (identifier : String)
    (replacements : List Replacement) :
    (state.remap identifier replacements).1.Reordered (other.remap identifier replacements).1 ∧
      (state.remap identifier replacements).2 = (other.remap identifier replacements).2 := by
  unfold BlockState.remap
  rw [h.identifier]
  split
  · rcases rel_cases h.properties with ⟨hp, hq⟩ | ⟨p, q, hp, hq, hpq⟩
    · rw [hp, hq]
      exact ⟨h, rfl⟩
    · simp only [hp, hq, find?_accepts_congr replacements hpq]
      cases replacements.find? (·.accepts q) with
      | none => exact ⟨h, rfl⟩
      | some r =>
        -- the same replacement is found, and it gives the same
        have hresult := r.result_congr hpq
        have hname := r.name.resolve?_congr hpq
        simp only [hresult, hname, h.pending]
        exact ⟨.refl _, trivial⟩
  · exact ⟨h, rfl⟩

theorem flatten (h : state.Reordered other) (identifier : String) (rule : Flattening) :
    (state.flatten identifier rule).Reordered (other.flatten identifier rule) := by
  unfold BlockState.flatten
  rw [h.identifier]
  split
  · rcases rel_cases h.properties with ⟨hp, hq⟩ | ⟨p, q, hp, hq, hpq⟩
    · rw [hp, hq]
      exact h
    · simp only [hp, hq, rule.resolve?_congr hpq]
      cases rule.resolve? q with
      | none => exact h
      | some name =>
        exact ⟨rfl, .some (hpq.erase rule.property), rfl⟩
  · exact h

theorem renameId (h : state.Reordered other) (renames : Dict String) :
    (state.renameId renames).Reordered (other.renameId renames) where
  identifier := h.identifier
  properties := h.properties
  pending := by
    unfold BlockState.renameId
    rw [h.identifier, h.pending]

theorem takePending (h : state.Reordered other) :
    state.takePending.Reordered other.takePending := by
  unfold BlockState.takePending
  rw [h.pending]
  cases other.pending with
  | none => exact h
  | some name => exact ⟨rfl, h.properties, rfl⟩

/-- An action keeps two blocks reordered, and tells the schema the same about both. -/
theorem apply (h : state.Reordered other) (action : Action) :
    (action.apply state).1.Reordered (action.apply other).1 ∧
      (action.apply state).2 = (action.apply other).2 := by
  cases action with
  | remapStates identifier replacements => exact h.remap identifier replacements
  | renameIds renames => exact ⟨h.renameId renames, rfl⟩
  | flatten identifier rule => exact ⟨h.flatten identifier rule, rfl⟩
  | addProperties identifier added =>
    exact ⟨h.changeProperties identifier fun _ _ hpq => hpq.insertAll added.entries, rfl⟩
  | removeProperties identifier names =>
    exact ⟨h.changeProperties identifier fun _ _ hpq =>
      Properties.reordered_eraseAll hpq names, rfl⟩
  | remapValues identifier tables =>
    exact ⟨h.changeProperties identifier fun _ _ hpq =>
      Properties.reordered_remapValues hpq tables, rfl⟩
  | renameProperties identifier renames =>
    exact ⟨h.changeProperties identifier fun _ _ hpq =>
      Properties.reordered_renameAll hpq renames, rfl⟩
  | takeName => exact ⟨h.takePending, rfl⟩

/-- The steps of a schema keep two blocks reordered: both runs skip the same steps. -/
theorem run (h : state.Reordered other) (stopped : Bool) (actions : List Action) :
    (Schema.run stopped actions state).Reordered (Schema.run stopped actions other) := by
  induction actions generalizing state other stopped with
  | nil => exact h
  | cons action rest ih =>
    rw [Schema.run, Schema.run]
    split
    · exact ih h stopped
    · obtain ⟨hstate, hsignal⟩ := h.apply action
      have hrest := ih hstate (stopped || (action.apply other).2 == .stop)
      simpa [hsignal] using hrest

theorem apply_schema (h : state.Reordered other) (schema : Schema) :
    (schema.apply state).Reordered (schema.apply other) :=
  h.run false schema.actions

/-- Lower case changes the values, and not their order. -/
theorem normalize (h : state.Reordered other) : state.normalize.Reordered other.normalize where
  identifier := congrArg Text.lowercase h.identifier
  properties := by
    unfold BlockState.normalize
    rcases rel_cases h.properties with ⟨hp, hq⟩ | ⟨p, q, hp, hq, hpq⟩
    · rw [hp, hq]
      exact .none
    · rw [hp, hq]
      exact .some (hpq.map PropertyValue.normalized)
  pending := h.pending

end Reordered
end BlockState
end BlockData
