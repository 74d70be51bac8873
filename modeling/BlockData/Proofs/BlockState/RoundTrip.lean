import BlockData.Proofs.BlockState.Reordered
import BlockData.Proofs.Tag.Children

/-!
# Block states written and read, read and written

A block state is read from a compound as it was written there, whatever the compound held before.
A compound is as it was when the block state read from it is written back, unless some of its
states are no properties: these are dropped, each with a notice.

* `writeTo_of_compound` and `writeTo_of_no_compound` say what writing back leaves;
* `BlockState.WrittenAgain` is all that writing back does to a compound;
* `reading_and_writing_undo_each_other` puts both directions together.
-/

namespace BlockData

namespace PropertyValue

/-- The kinds of tag that properties have. -/
def kinds : List Tag.Kind := [.int, .byte, .string]

/-- A tag is found again from the value that it holds. -/
theorem map_toTag_ofTag? (tag : Tag) :
    (ofTag? tag).map toTag = if tag.kind ∈ kinds then some tag else none := by
  cases tag <;> rfl

theorem isSome_ofTag?_iff (tag : Tag) : (ofTag? tag).isSome ↔ tag.kind ∈ kinds := by
  cases tag <;> simp [ofTag?, Tag.kind, kinds]

end PropertyValue

namespace BlockState

/-! ## States and properties -/

/-- The compound of the properties among some states has those states that are properties. -/
theorem statesTag_propertiesOf {states : Compound} (distinct : states.Distinct) :
    statesTag (propertiesOf states) = states.filter (·.2.kind ∈ PropertyValue.kinds) := by
  -- no child comes twice, so that the properties are the children in order
  have hentries : (propertiesOf states).entries =
      states.filterMap fun child => (PropertyValue.ofTag? child.2).map (child.1, ·) :=
    Entries.ofList_of_distinct (Entries.distinct_filterMap PropertyValue.ofTag? distinct)
  have hchild : ∀ child : String × Tag,
      ((PropertyValue.ofTag? child.2).map (child.1, ·)).map
          (fun pair => (pair.1, pair.2.toTag)) =
        Option.guard (fun child => child.2.kind ∈ PropertyValue.kinds) child := by
    rintro ⟨key, tag⟩
    have htag : ((PropertyValue.ofTag? tag).map (key, ·)).map
        (fun pair => (pair.1, pair.2.toTag)) =
          ((PropertyValue.ofTag? tag).map PropertyValue.toTag).map (key, ·) := by
      rw [Option.map_map, Option.map_map]
      rfl
    rw [htag, PropertyValue.map_toTag_ofTag?]
    by_cases hkind : tag.kind ∈ PropertyValue.kinds <;> simp [Option.guard, hkind]
  calc statesTag (propertiesOf states)
      = (states.filterMap fun child => (PropertyValue.ofTag? child.2).map (child.1, ·)).map
          fun pair => (pair.1, pair.2.toTag) := by
        rw [statesTag, hentries]
        rfl
    _ = states.filterMap (Option.guard fun child => child.2.kind ∈ PropertyValue.kinds) := by
        rw [List.map_filterMap]
        exact List.filterMap_congr fun child _ => hchild child
    _ = _ := by rw [List.filterMap_eq_filter]

/-- There is a notice for each state that is no property, in their order. -/
theorem droppedStates_eq (identifier : String) (states : Compound) :
    droppedStates identifier states =
      (states.filter (·.2.kind ∉ PropertyValue.kinds)).map fun child =>
        .droppedState child.2.kind child.1 identifier := by
  induction states with
  | nil => rfl
  | cons child rest ih =>
    rcases child with ⟨key, tag⟩
    have hkind := PropertyValue.isSome_ofTag?_iff tag
    unfold droppedStates at ih ⊢
    cases hvalue : PropertyValue.ofTag? tag with
    | some value =>
      have hproperty : tag.kind ∈ PropertyValue.kinds := by simpa [hvalue] using hkind
      simpa [hvalue, hproperty] using ih
    | none =>
      have hproperty : tag.kind ∉ PropertyValue.kinds := by simpa [hvalue] using hkind
      simpa [hvalue, hproperty] using ih

/-- The states that are written hold nothing but properties. -/
theorem droppedStates_statesTag (identifier : String) (properties : Properties) :
    droppedStates identifier (statesTag properties) = [] := by
  refine List.filterMap_eq_nil_iff.2 fun child hchild => ?_
  rcases List.mem_map.1 hchild with ⟨pair, -, rfl⟩
  simp [PropertyValue.ofTag?_toTag]

/-- The notices of reading a block state are about those of its states that are no properties. -/
theorem notices_ofTag?_eq {tag : Compound} {name : String} (h : tag.getString? "name" = some name) :
    (ofTag? tag).notices = droppedStates name ((tag.getCompound? "states").getD []) := by
  unfold ofTag?
  rw [h]
  cases tag.getCompound? "states" with
  | none => rfl
  | some states => exact List.append_nil _

/-- What is written is read again, without a notice. -/
theorem ofTag?_writeTo {state : BlockState} {tag : Compound} (distinct : tag.Distinct)
    (hpending : state.pending = none) : ofTag? (state.writeTo tag) = pure (some state) := by
  have hvalue : (ofTag? (state.writeTo tag)).value = some state := by
    rw [state.value_ofTag?_writeTo distinct, ← hpending]
  have hname : (state.writeTo tag).getString? "name" = some state.identifier :=
    Compound.getString?_eq_some_iff.2 (state.get?_name_writeTo distinct)
  have hnotices : (ofTag? (state.writeTo tag)).notices = [] := by
    rw [notices_ofTag?_eq hname, Compound.getCompound?, state.get?_states_writeTo distinct]
    cases state.properties with
    | none => rfl
    | some properties => exact droppedStates_statesTag state.identifier properties
  rcases hread : ofTag? (state.writeTo tag) with ⟨value, notices⟩
  simp only [hread] at hvalue hnotices
  rw [hvalue, hnotices]
  rfl

/-! ## Writing back -/

variable {tag : Compound} {name : String}

/-- The block state that is read from a compound with a name. -/
def readFrom (tag : Compound) (name : String) : BlockState :=
  ⟨name, (tag.getCompound? "states").map propertiesOf, none⟩

/-- The name is written back where it was read. -/
theorem insert_name (hname : tag.getString? "name" = some name) :
    tag.insert "name" (.string name) = tag :=
  Entries.insert_eq_self_iff.2 (Compound.getString?_eq_some_iff.1 hname)

/-- Where the states are a compound, those that are properties are written back. -/
theorem writeTo_of_compound (hname : tag.getString? "name" = some name) {states : Compound}
    (hstates : tag.get? "states" = some (.compound states)) (distinct : states.Distinct) :
    (readFrom tag name).writeTo tag =
      tag.insert "states" (.compound (states.filter (·.2.kind ∈ PropertyValue.kinds))) := by
  have hsome : (readFrom tag name).properties = some (propertiesOf states) := by
    rw [readFrom, Compound.getCompound?_eq_some_iff.2 hstates]
    rfl
  rw [writeTo_of_some hsome, statesTag_propertiesOf distinct]
  exact congrArg (Entries.insert _ _) (insert_name hname)

/-- Without such states there are none afterwards. -/
theorem writeTo_of_no_compound (hname : tag.getString? "name" = some name)
    (hstates : tag.getCompound? "states" = none) :
    (readFrom tag name).writeTo tag = tag.erase "states" := by
  have hnone : (readFrom tag name).properties = none := by
    rw [readFrom, hstates]
    rfl
  rw [writeTo_of_none hnone]
  exact congrArg (Entries.erase _) (insert_name hname)

/-- What it does to a compound to read the block state in it and write this back. -/
structure WrittenAgain (tag : Compound) (name : String) (after : Compound) : Prop where
  /-- Nothing changes exactly if there are no states, or all of them are properties. -/
  eq_iff : after = tag ↔ tag.get? "states" = none ∨
    ∃ states, tag.get? "states" = some (.compound states) ∧
      ∀ child ∈ states, child.2.kind ∈ PropertyValue.kinds
  /-- States that are no properties are dropped; the others keep their order and the compound of
  states its place. -/
  dropped : ∀ states, tag.get? "states" = some (.compound states) →
    after = tag.insert "states" (.compound (states.filter (·.2.kind ∈ PropertyValue.kinds))) ∧
      after.keys = tag.keys
  /-- States that are no compound are removed. -/
  removed : ∀ child, tag.get? "states" = some child → child.kind ≠ .compound →
    after = tag.erase "states"
  /-- All other children stay as they are, in their order. -/
  others : after.filter (·.1 ≠ "states") = tag.filter (·.1 ≠ "states")
  /-- There is one notice for each state that is dropped, in their order. -/
  notices : (ofTag? tag).notices =
    (((tag.getCompound? "states").getD []).filter (·.2.kind ∉ PropertyValue.kinds)).map
      fun child => .droppedState child.2.kind child.1 name
  warnings : ∀ notice ∈ (ofTag? tag).notices, notice.severity = .warn

theorem writtenAgain_writeTo (hkeyed : tag.isKeyed) (hname : tag.getString? "name" = some name) :
    WrittenAgain tag name ((readFrom tag name).writeTo tag) := by
  obtain ⟨distinct, -⟩ := Compound.isKeyed_iff.1 hkeyed
  have hnotices := notices_ofTag?_eq hname
  rw [droppedStates_eq] at hnotices
  have hdropped : ∀ states, tag.get? "states" = some (.compound states) →
      (readFrom tag name).writeTo tag =
        tag.insert "states" (.compound (states.filter (·.2.kind ∈ PropertyValue.kinds))) := by
    intro states hstates
    have hchildren := Compound.getCompound?_eq_some_iff.2 hstates
    exact writeTo_of_compound hname hstates (Compound.distinct_of_getCompound? hkeyed hchildren)
  refine
    { eq_iff := ?_
      dropped := ?_
      removed := ?_
      others := ?_
      notices := hnotices
      warnings := ?_ }
  · cases hchildren : tag.getCompound? "states" with
    | some states =>
      have hstates := Compound.getCompound?_eq_some_iff.1 hchildren
      -- a child is dropped unless it has one of the kinds
      have hall : states = states.filter (·.2.kind ∈ PropertyValue.kinds) ↔
          ∀ child ∈ states, child.2.kind ∈ PropertyValue.kinds := by
        rw [eq_comm, List.filter_eq_self]
        simp only [decide_eq_true_eq]
      rw [hdropped states hstates, Entries.insert_eq_self_iff, hstates, Option.some.injEq,
        Tag.compound.injEq, hall]
      simp
    | none =>
      rw [writeTo_of_no_compound hname hchildren, Entries.erase_eq_self_iff distinct]
      refine (or_iff_left ?_).symm
      -- there would be states to read
      rintro ⟨states, hstates, -⟩
      simp [Compound.getCompound?_eq_some_iff.2 hstates] at hchildren
  · intro states hstates
    rw [hdropped states hstates, Entries.keys_insert]
    have hkey : "states" ∈ tag.keys := by simp [← Entries.isSome_get?, hstates]
    exact ⟨rfl, if_pos hkey⟩
  · intro child hchild hkind
    exact writeTo_of_no_compound hname (Compound.getCompound?_eq_none hchild hkind)
  · cases hchildren : tag.getCompound? "states" with
    | some states =>
      rw [hdropped states (Compound.getCompound?_eq_some_iff.1 hchildren), Entries.filter_insert]
    | none => rw [writeTo_of_no_compound hname hchildren, Entries.filter_erase]
  · rw [hnotices]
    intro notice hnotice
    rcases List.mem_map.1 hnotice with ⟨child, -, rfl⟩
    rfl

/-- A block state with nothing pending is read from any compound as it was written into it.
Conversely, a block state that is read from a compound and written back into it changes nothing but
the states that are no properties. -/
theorem reading_and_writing_undo_each_other :
    (∀ (state : BlockState) (tag : Compound), tag.Distinct → state.pending = none →
      ofTag? (state.writeTo tag) = pure (some state)) ∧
    ∀ (tag : Compound) (name : String), tag.isKeyed → tag.getString? "name" = some name →
      ∃ state, (ofTag? tag).value = some state ∧ WrittenAgain tag name (state.writeTo tag) := by
  refine ⟨fun _ _ distinct hpending => ofTag?_writeTo distinct hpending, ?_⟩
  intro tag name hkeyed hname
  refine ⟨readFrom tag name, ?_, writtenAgain_writeTo hkeyed hname⟩
  rw [value_ofTag?_eq, hname]
  rfl

/-- A chest without properties and one without a place for them are told apart, and of the states
of a third one two are no properties. -/
theorem reading_and_writing_of_chests :
    let bare : BlockState := ⟨"x:chest", none, none⟩
    let plain : BlockState := ⟨"x:chest", some .empty, none⟩
    let stale : Compound := [("states", .compound [("age", .int 4)]), ("name", .int 1)]
    let mixed : Compound := [("version", .int 7), ("name", .string "X:Chest"),
      ("states", .compound [("open", .byte 1), ("weird", .long 9), ("facing", .string "North"),
        ("items", .list [])]), ("extra", .long 7)]
    (stale.Distinct ∧ ofTag? (bare.writeTo stale) = pure (some bare) ∧
      ofTag? (plain.writeTo stale) = pure (some plain)) ∧
    (mixed.isKeyed ∧ mixed.getString? "name" = some "X:Chest" ∧
      ∃ state, (ofTag? mixed).value = some state ∧
        state.writeTo mixed = [("version", .int 7), ("name", .string "X:Chest"),
          ("states", .compound [("open", .byte 1), ("facing", .string "North")]),
          ("extra", .long 7)] ∧
        (ofTag? mixed).notices =
          [.droppedState .long "weird" "X:Chest", .droppedState .list "items" "X:Chest"]) := by
  intro bare plain stale mixed
  have h := reading_and_writing_undo_each_other
  have hstale : stale.Distinct := by decide
  have hmixed : mixed.isKeyed := by decide
  refine ⟨⟨hstale, h.1 bare stale hstale rfl, h.1 plain stale hstale rfl⟩, hmixed, rfl, ?_⟩
  rcases h.2 mixed "X:Chest" hmixed rfl with ⟨state, hread, hwritten⟩
  exact ⟨state, hread, (hwritten.dropped _ rfl).1, hwritten.notices⟩

end BlockState
end BlockData
