import BlockData.Proofs.BlockEntity.Layout

/-!
# What becomes of a pot

The sherds of a pot are translated in their places, each of them by itself, and the item in it is
translated too.  Nothing is taken over untranslated: what is not in the mapping gets a default,
and a warning.

* `warnings_convertPot` says which warnings there are;
* `PotTranslated` is all that a translation does to the sherds and the item;
* `pots_are_translated` says that every pot is translated.
-/

namespace BlockData

namespace Logged

variable {α β : Type}

/-- The warnings among the notices. -/
def warnings (x : Logged α) : List Notice :=
  x.notices.filter (·.severity = .warn)

@[simp] theorem warnings_pure (a : α) : (pure a : Logged α).warnings = [] := rfl

@[simp] theorem warnings_bind (x : Logged α) (f : α → Logged β) :
    (x >>= f).warnings = x.warnings ++ (f x.value).warnings := by
  simp [warnings]

@[simp] theorem warnings_map (f : α → β) (x : Logged α) : (f <$> x).warnings = x.warnings := by
  simp [warnings]

theorem warnings_mapM (f : α → Logged β) (items : List α) :
    (items.mapM f).warnings = items.flatMap fun item => (f item).warnings := by
  unfold warnings
  rw [notices_mapM, List.filter_flatMap]

end Logged

namespace BlockEntity

variable (items : ItemMapping) (source : Compound)

/-! ## Warnings -/

theorem warnings_faceFor (sherd : String) :
    (faceFor items sherd).warnings =
      if sherd ≠ "" ∧ items.get? sherd = none then [.missingItem sherd] else [] := by
  unfold faceFor
  cases items.get? sherd with
  | some face => simp
  | none =>
    by_cases hblank : sherd = ""
    · simp [hblank]
    · simp [hblank, Logged.warnings, Logged.note, Notice.severity]

/-- The sherds without a face, blank ones aside. -/
def missingSherds : List String :=
  ((source.getStrings? "sherds").getD []).filter fun sherd => sherd ≠ "" ∧ items.get? sherd = none

theorem warnings_facesOf :
    (facesOf items source).warnings = (missingSherds items source).map .missingItem := by
  unfold facesOf missingSherds
  cases source.getStrings? "sherds" with
  | none => rfl
  | some sherds =>
    simp only [Logged.warnings_bind, Logged.warnings_mapM, Logged.warnings_pure, List.append_nil,
      Option.getD_some]
    induction sherds with
    | nil => rfl
    | cons sherd rest ih =>
      rw [List.flatMap_cons, ih, warnings_faceFor]
      by_cases hmissing : sherd ≠ "" ∧ items.get? sherd = none
      · rw [if_pos hmissing, List.filter_cons_of_pos (by simpa using hmissing)]
        rfl
      · rw [if_neg hmissing, List.filter_cons_of_neg (by simpa using hmissing)]
        rfl

/-- That a child is not copied is no matter for a warning. -/
theorem warnings_copy (target : Compound) (key : String) (kind : Tag.Kind) :
    (copy source target key kind).warnings = [] := by
  unfold copy
  cases source.get? key with
  | none => rfl
  | some child =>
    by_cases hkind : child.kind = kind
    · simp [hkind]
    · simp [hkind, Logged.warnings, Logged.note, Notice.severity]

/-- The warning about an item does not depend on where the item is put. -/
theorem warnings_copyItem (target : Compound) (key : String) :
    (copyItem items source target key).warnings =
      (((source.getCompound? key).bind stack?).map fun (name, _) =>
        (itemFor items name).warnings).getD [] := by
  unfold copyItem
  cases (source.getCompound? key).bind stack? with
  | none => rfl
  | some stack => simp

theorem warnings_convertPot :
    (convertPot items source).warnings = (missingSherds items source).map .missingItem ++
      (copyItem items source [] "item").warnings := by
  rw [convertPot_eq]
  simp only [Logged.warnings_bind, warnings_facesOf, warnings_copy, warnings_copyItem,
    Logged.warnings_pure, List.append_nil]

theorem warnings_itemFor (name : String) :
    (itemFor items name).warnings =
      if items.get? name = none then [.missingItem name] else [] := by
  unfold itemFor
  cases items.get? name with
  | some id => rfl
  | none => rfl

/-! ## Translations -/

/-- The texts of the warnings about the item of a pot. -/
inductive ItemWarned (pot : Compound) : List String → Prop where
  /-- An item without a counterpart is written as the default one. -/
  | missing {item : Compound} {name : String} {count : Int} {number : Int32}
      (found : source.get? "item" = some (.compound item)) (stack : IsStack item name count)
      (unknown : items.get? name = none)
      (written : pot.get? "item" =
        some (.compound [("id", .string "minecraft:stone"), ("count", .int number)])) :
      ItemWarned pot ["Missing item: " ++ name]
  | nothing (known : ∀ item name count, source.get? "item" = some (.compound item) →
      IsStack item name count → items.get? name ≠ none) : ItemWarned pot []

/-- What the sherds and the item of a pot are translated to, and the texts of the warnings. -/
structure PotTranslated (pot : Compound) (warnings : List String) : Prop where
  /-- There are faces exactly if the sherds are a list of texts. -/
  sherds : "sherds" ∈ pot.keys ↔
    ∃ sherds : List String, source.get? "sherds" = some (.list (sherds.map .string))
  /-- In each place there is the counterpart of the sherd, a blank one included, or the default. -/
  faces : ∀ sherds : List String, source.get? "sherds" = some (.list (sherds.map .string)) →
    ∃ faces : List String, pot.get? "sherds" = some (.list (faces.map .string)) ∧
      faces.length = sherds.length ∧
      ∀ (i : Nat) (sherd : String), sherds[i]? = some sherd →
        faces[i]? = some ((items.get? sherd).getD "minecraft:brick")
  /-- No face is a sherd that was not translated. -/
  knownFaces : ∀ tag, pot.get? "sherds" = some tag →
    ∃ faces : List String, tag = .list (faces.map .string) ∧
      ∀ face ∈ faces, face = "minecraft:brick" ∨ ∃ sherd, items.get? sherd = some face
  /-- Neither is the item one. -/
  knownItem : ∀ tag, pot.get? "item" = some tag →
    ∃ id count, tag = .compound [("id", .string id), ("count", .int count)] ∧
      (id = "minecraft:stone" ∨ ∃ name, items.get? name = some id)
  /-- There is a warning for each sherd without a counterpart, blank ones aside, in their order, and
  one for the item at the end. -/
  warnings : ∃ ofItem, ItemWarned items source pot ofItem ∧
    warnings = (((source.getStrings? "sherds").getD []).filter fun sherd =>
      sherd ≠ "" ∧ items.get? sherd = none).map ("Missing item: " ++ ·) ++ ofItem

variable {items source}

/-- The item of a pot is warned about if its name is not in the mapping. -/
theorem itemWarned_copyItem {pot : Compound}
    (hwritten : pot.get? "item" = stackFor? items source "item") :
    ItemWarned items source pot
      ((copyItem items source [] "item").warnings.map Notice.message) := by
  rw [warnings_copyItem]
  cases hstack : (source.getCompound? "item").bind stack? with
  | none =>
    refine .nothing fun item name count hitem h => ?_
    obtain ⟨number, rfl⟩ := h.exists_number
    simp [Compound.getCompound?_eq_some_iff.2 hitem, stack?_eq_some_iff.2 h] at hstack
  | some stack =>
    rcases stack with ⟨name, count⟩
    obtain ⟨item, hfound, hitem⟩ := Option.bind_eq_some_iff.1 hstack
    have hkey := Compound.getCompound?_eq_some_iff.1 hfound
    have his := stack?_eq_some_iff.1 hitem
    simp only [Option.map_some, Option.getD_some, warnings_itemFor]
    by_cases hunknown : items.get? name = none
    · have hdefault : pot.get? "item" =
          some (.compound [("id", .string "minecraft:stone"), ("count", .int count)]) := by
        rw [hwritten]
        exact stackFor?_eq_some_iff.2 ⟨item, name, count, hkey, his, by rw [hunknown]; rfl⟩
      rw [if_pos hunknown]
      exact .missing hkey his hunknown hdefault
    · rw [if_neg hunknown]
      refine .nothing fun other name' count' hother h => ?_
      -- there is one item, and it has one name
      obtain rfl : item = other := by simpa [hkey] using hother
      obtain rfl : name = name' := by simpa [his.named] using h.named
      exact hunknown

/-- What takes the place of a name is a counterpart or the default. -/
theorem getD_eq_or_exists (items : ItemMapping) (name other : String) :
    (items.get? name).getD other = other ∨
      ∃ known, items.get? known = some ((items.get? name).getD other) := by
  cases h : items.get? name with
  | none => exact Or.inl rfl
  | some id => exact Or.inr ⟨name, h⟩

theorem potTranslated_convertPot :
    PotTranslated items source (convertPot items source).value
      ((convertPot items source).warnings.map Notice.message) := by
  have distinct := distinct_potLayout items
  -- the two places of the layout that something is said about
  have hsherds : ((potLayout items).fill source).get? "sherds" = facesFor? items source :=
    Layout.get?_fill distinct source rfl
  have hitem : ((potLayout items).fill source).get? "item" = stackFor? items source "item" :=
    Layout.get?_fill distinct source
      (rfl : Entries.get? _ "item" = some fun source => stackFor? items source "item")
  rw [value_convertPot]
  refine
    { sherds := ?_
      faces := ?_
      knownFaces := ?_
      knownItem := ?_
      warnings := ⟨_, itemWarned_copyItem hitem, ?_⟩ }
  · rw [Layout.mem_keys_fill_iff distinct source rfl]
    simp [facesFor?, Compound.getStrings?_eq_some_iff]
  · intro sherds h
    refine ⟨sherds.map (face items), ?_, List.length_map _, ?_⟩
    · rw [hsherds, facesFor?, Compound.getStrings?_eq_some_iff.2 h]
      simp
    · intro i sherd hsherd
      rw [List.getElem?_map, hsherd]
      rfl
  · intro tag htag
    rw [hsherds, facesFor?, Option.map_eq_some_iff] at htag
    obtain ⟨sherds, -, rfl⟩ := htag
    refine ⟨sherds.map (face items), by simp, ?_⟩
    intro name hname
    obtain ⟨sherd, -, rfl⟩ := List.mem_map.1 hname
    -- a face that is not mapped to is the default
    exact getD_eq_or_exists items sherd defaultSherd
  · intro tag htag
    rw [hitem, stackFor?_eq_some_iff] at htag
    obtain ⟨item, name, count, -, -, rfl⟩ := htag
    exact ⟨_, count, rfl, getD_eq_or_exists items name ItemMapping.defaultItem⟩
  · rw [warnings_convertPot, List.map_append, List.map_map]
    rfl

/-- Every pot is translated, whatever it holds. -/
theorem pots_are_translated (items : ItemMapping) (source : Compound) :
    ∃ pot, (convert items "DecoratedPot" source).value = some pot ∧
      PotTranslated items source pot
        ((convert items "DecoratedPot" source).warnings.map Notice.message) := by
  refine ⟨(convertPot items source).value, rfl, ?_⟩
  have hwarnings : (convert items "DecoratedPot" source).warnings =
      (convertPot items source).warnings := by
    simp [convert, converter?, converters, Entries.get?]
  rw [hwarnings]
  exact potTranslated_convertPot

/-- A pot with a blank sherd, which the mapping knows, two unknown sherds and an unknown item. -/
theorem pot_of_unknown_sherds_is_translated :
    let items : ItemMapping := .ofList [("x:skull", "x:skull_face"), ("", "x:blank_face")]
    let egg : Compound := [("Name", .string "x:egg")]
    let source : Compound := [("item", .compound egg),
      ("sherds", .list (["x:skull", "", "x:lost", "x:skull", "x:lost"].map .string))]
    ∃ pot, (convert items "DecoratedPot" source).value = some pot ∧
      (∃ faces : List String, pot.get? "sherds" = some (.list (faces.map .string)) ∧
        faces.length = 5 ∧ faces[1]? = some "x:blank_face" ∧ faces[2]? = some "minecraft:brick" ∧
        faces[3]? = some "x:skull_face") ∧
      (∃ number, pot.get? "item" =
        some (.compound [("id", .string "minecraft:stone"), ("count", .int number)])) ∧
      (convert items "DecoratedPot" source).warnings.map Notice.message =
        ["Missing item: x:lost", "Missing item: x:lost", "Missing item: x:egg"] := by
  intro items egg source
  have hegg : source.get? "item" = some (.compound egg) := rfl
  have hstack : IsStack egg "x:egg" 1 := ⟨rfl, by decide, by decide, rfl, by decide⟩
  obtain ⟨pot, hpot, h⟩ := pots_are_translated items source
  obtain ⟨faces, hfaces, hlength, hface⟩ := h.faces _ rfl
  obtain ⟨ofItem, hwarned, hwarnings⟩ := h.warnings
  refine ⟨pot, hpot, ⟨faces, hfaces, hlength, hface 1 _ rfl, hface 2 _ rfl, hface 3 _ rfl⟩, ?_⟩
  rw [hwarnings]
  -- the egg is a stack, and it is in no mapping
  cases hwarned with
  | nothing known => exact absurd rfl (known egg "x:egg" 1 hegg hstack)
  | missing found stack unknown written =>
    obtain rfl := Tag.compound.inj (Option.some.inj (hegg.symm.trans found))
    obtain rfl := Tag.string.inj (Option.some.inj (hstack.named.symm.trans stack.named))
    exact ⟨⟨_, written⟩, rfl⟩

end BlockEntity
end BlockData
