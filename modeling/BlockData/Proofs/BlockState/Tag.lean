import BlockData.BlockState.Tag
import BlockData.Proofs.Dict

/-!
# Block states in tags, read and written

A block state is found again in the compound that it was written into, a second writing
takes the place of the first, and other children of the compound are left alone.

* `ofTag?_writeTo`: what is written is read again;
* `writeTo_writeTo`: of two writings the second one counts;
* `writeTo_insert`: other children may be written before or after.
-/

namespace BlockData

theorem PropertyValue.ofTag?_toTag (value : PropertyValue) : ofTag? value.toTag = some value := by
  cases value <;> rfl

namespace BlockState

/-- Properties are found again among the states. -/
theorem propertiesOf_statesTag (properties : Properties) :
    propertiesOf (statesTag properties) = properties := by
  have hentry : (fun pair : String × PropertyValue =>
      (PropertyValue.ofTag? pair.2.toTag).map (pair.1, ·)) = some := by
    funext pair
    rw [PropertyValue.ofTag?_toTag, Option.map_some]
  calc propertiesOf (statesTag properties)
      = .ofList (properties.entries.filterMap fun pair =>
          (PropertyValue.ofTag? pair.2.toTag).map (pair.1, ·)) := by
        rw [propertiesOf, statesTag, Entries.mapValues, List.filterMap_map]
        rfl
    _ = .ofList properties.entries := by rw [hentry, List.filterMap_some]
    _ = properties := Dict.ofList_entries properties

theorem distinct_statesTag (properties : Properties) : (statesTag properties).Distinct := by
  rw [Entries.Distinct, statesTag, Entries.keys_mapValues]
  exact properties.distinct

/-! ## Reading -/

/-- What is read is the name and, if there are states, the properties among them. -/
theorem value_ofTag?_eq (tag : Compound) :
    (ofTag? tag).value = (tag.getString? "name").map fun identifier =>
      ⟨identifier, (tag.getCompound? "states").map propertiesOf, none⟩ := by
  unfold ofTag?
  cases tag.getString? "name" with
  | none => rfl
  | some identifier => cases tag.getCompound? "states" <;> rfl

/-- Reading depends on two children alone. -/
theorem ofTag?_congr {tag other : Compound} (hname : tag.get? "name" = other.get? "name")
    (hstates : tag.get? "states" = other.get? "states") : ofTag? tag = ofTag? other := by
  simp only [ofTag?, Compound.getString?, Compound.getCompound?, hname, hstates]

/-- Other children do not matter to reading. -/
theorem ofTag?_insert {key : String} (hname : key ≠ "name") (hstates : key ≠ "states")
    (value : Tag) (tag : Compound) : ofTag? (tag.insert key value) = ofTag? tag :=
  ofTag?_congr (by rw [Entries.get?_insert, if_neg hname])
    (by rw [Entries.get?_insert, if_neg hstates])

/-! ## Writing -/

theorem writeTo_of_some {state : BlockState} {properties : Properties}
    (h : state.properties = some properties) (tag : Compound) :
    state.writeTo tag =
      (tag.insert "name" (.string state.identifier)).insert "states"
        (.compound (statesTag properties)) := by
  simp only [writeTo, h]

theorem writeTo_of_none {state : BlockState} (h : state.properties = none) (tag : Compound) :
    state.writeTo tag = (tag.insert "name" (.string state.identifier)).erase "states" := by
  simp only [writeTo, h]

/-- What is found after writing: the name, the states of a block that has a place for properties,
and what was there before. -/
theorem get?_writeTo_eq (state : BlockState) {tag : Compound} (distinct : tag.Distinct)
    (key : String) :
    (state.writeTo tag).get? key =
      if "states" = key then
        state.properties.map fun properties => .compound (statesTag properties)
      else if "name" = key then some (.string state.identifier) else tag.get? key := by
  cases h : state.properties with
  | some properties =>
    rw [writeTo_of_some h, Entries.get?_insert, Entries.get?_insert]
    rfl
  | none =>
    rw [writeTo_of_none h, Entries.get?_erase _ (Entries.distinct_insert _ _ distinct),
      Entries.get?_insert]
    rfl

/-- Writing changes no other child. -/
theorem get?_writeTo {state : BlockState} {tag : Compound} (distinct : tag.Distinct)
    {key : String} (hname : key ≠ "name") (hstates : key ≠ "states") :
    (state.writeTo tag).get? key = tag.get? key := by
  rw [get?_writeTo_eq state distinct, if_neg (Ne.symm hstates), if_neg (Ne.symm hname)]

/-- The name that is written. -/
theorem get?_name_writeTo (state : BlockState) {tag : Compound} (distinct : tag.Distinct) :
    (state.writeTo tag).get? "name" = some (.string state.identifier) := by
  rw [get?_writeTo_eq state distinct, if_neg (by decide), if_pos rfl]

/-- The states that are written, which are gone if the block has no place for properties. -/
theorem get?_states_writeTo (state : BlockState) {tag : Compound} (distinct : tag.Distinct) :
    (state.writeTo tag).get? "states" =
      state.properties.map fun properties => .compound (statesTag properties) := by
  rw [get?_writeTo_eq state distinct, if_pos rfl]

/-- Writing keeps the places of children, except for states that go. -/
theorem keys_writeTo {state : BlockState} {tag : Compound} (hname : "name" ∈ tag.keys)
    (hstates : state.properties.isSome → "states" ∈ tag.keys) :
    (state.writeTo tag).keys =
      if state.properties.isSome then tag.keys else tag.keys.erase "states" := by
  have hinsert : (tag.insert "name" (.string state.identifier)).keys = tag.keys := by
    rw [Entries.keys_insert, if_pos hname]
  cases h : state.properties with
  | some properties =>
    rw [h] at hstates
    rw [writeTo_of_some h, Entries.keys_insert, hinsert, if_pos (hstates rfl)]
    rfl
  | none =>
    rw [writeTo_of_none h, Entries.keys_erase, hinsert]
    rfl

/-- Writing leaves the children distinct. -/
theorem distinct_writeTo (state : BlockState) {tag : Compound} (distinct : tag.Distinct) :
    (state.writeTo tag).Distinct := by
  have hinsert := Entries.distinct_insert "name" (.string state.identifier) distinct
  cases h : state.properties with
  | some properties =>
    rw [writeTo_of_some h]
    exact Entries.distinct_insert _ _ hinsert
  | none =>
    rw [writeTo_of_none h]
    exact Entries.distinct_erase _ hinsert

/-- There is a name after writing. -/
theorem name_mem_keys_writeTo (state : BlockState) (tag : Compound) :
    "name" ∈ Entries.keys (state.writeTo tag) := by
  have hname : "name" ∈ Entries.keys (tag.insert "name" (.string state.identifier)) :=
    Entries.mem_keys_insert_self
  cases h : state.properties with
  | some properties =>
    rw [writeTo_of_some h]
    exact Entries.mem_keys_insert_of_mem hname
  | none =>
    rw [writeTo_of_none h, Entries.keys_erase]
    exact (List.mem_erase_of_ne (by decide)).2 hname

/-- There are states after writing properties. -/
theorem states_mem_keys_writeTo {state : BlockState} (h : state.properties.isSome)
    (tag : Compound) : "states" ∈ Entries.keys (state.writeTo tag) := by
  rcases Option.isSome_iff_exists.1 h with ⟨properties, h⟩
  rw [writeTo_of_some h]
  exact Entries.mem_keys_insert_self

/-- A block state is found again where it was written, except for its pending name. -/
theorem value_ofTag?_writeTo (state : BlockState) {tag : Compound} (distinct : tag.Distinct) :
    (ofTag? (state.writeTo tag)).value = some { state with pending := none } := by
  have hname : (state.writeTo tag).getString? "name" = some state.identifier := by
    rw [Compound.getString?, get?_name_writeTo state distinct]
    rfl
  have hstates : (state.writeTo tag).getCompound? "states" = state.properties.map statesTag := by
    rw [Compound.getCompound?, get?_states_writeTo state distinct]
    cases state.properties <;> rfl
  rw [value_ofTag?_eq, hname, hstates, Option.map_map]
  cases state.properties with
  | none => rfl
  | some properties => simp [propertiesOf_statesTag]

/-- Of two writings the second one counts, if both have properties or neither has. -/
theorem writeTo_writeTo {first second : BlockState} {tag : Compound} (distinct : tag.Distinct)
    (h : first.properties.isSome = second.properties.isSome) :
    second.writeTo (first.writeTo tag) = second.writeTo tag := by
  have hne : "name" ≠ "states" := by decide
  cases hfirst : first.properties with
  | some before =>
    obtain ⟨after, hsecond⟩ : ∃ after, second.properties = some after := by
      rw [← Option.isSome_iff_exists, ← h, hfirst]
      rfl
    rw [writeTo_of_some hsecond, writeTo_of_some hsecond, writeTo_of_some hfirst,
      Entries.insert_comm hne _ _ Entries.mem_keys_insert_self, Entries.insert_insert_self,
      Entries.insert_insert_self]
  | none =>
    have hsecond : second.properties = none := by
      simpa [hfirst] using h.symm
    have hdistinct := Entries.distinct_insert "name" (.string first.identifier) distinct
    -- the first writing has dropped the states, and the second finds none
    have hgone : "states" ∉ Entries.keys
        ((tag.insert "name" (.string first.identifier)).erase "states") := by
      rw [← Entries.get?_eq_none_iff, Entries.get?_erase _ hdistinct, if_pos rfl]
    rw [writeTo_of_none hsecond, writeTo_of_none hsecond, writeTo_of_none hfirst,
      Entries.erase_insert_comm (Ne.symm hne), Entries.erase_of_notMem hgone,
      ← Entries.erase_insert_comm (Ne.symm hne), Entries.insert_insert_self]

/-- Another child may be written before or after, if the places of the name and the states
are there. -/
theorem writeTo_insert {state : BlockState} {tag : Compound} {key : String}
    (hname : key ≠ "name") (hstates : key ≠ "states") (value : Tag)
    (hplace : "name" ∈ Entries.keys tag)
    (hplaces : state.properties.isSome → "states" ∈ Entries.keys tag) :
    state.writeTo (tag.insert key value) = (state.writeTo tag).insert key value := by
  cases h : state.properties with
  | some properties =>
    -- a child that is there keeps its place, so that the order of writing does not matter
    have hkept : "states" ∈ Entries.keys (tag.insert "name" (.string state.identifier)) := by
      rw [Entries.keys_insert, if_pos hplace]
      exact hplaces (by rw [h]; rfl)
    rw [writeTo_of_some h, writeTo_of_some h, Entries.insert_comm (Ne.symm hname) _ _ hplace,
      Entries.insert_comm (Ne.symm hstates) _ _ hkept]
  | none =>
    rw [writeTo_of_none h, writeTo_of_none h, Entries.insert_comm (Ne.symm hname) _ _ hplace,
      Entries.erase_insert_comm (Ne.symm hstates)]

end BlockState
end BlockData
