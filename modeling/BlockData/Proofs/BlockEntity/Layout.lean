import BlockData.BlockEntity.Converter
import BlockData.Proofs.BlockEntity.Copy
import BlockData.Proofs.Dict.Reordered

/-!
# Layouts of converted block entities

A converter fills in a layout: a list of keys in a fixed order, each with what is made of the
source for it, or nothing.  What is not made is left out, and there is nothing else.

* `keys_fill_sublist`, `mem_keys_fill_iff` and `get?_fill` say what a compound has that is filled
  in;
* `value_convert` says that every converter fills in a layout.
-/

namespace BlockData.BlockEntity

/-- The keys of a compound in the target format, each with what is made of a source for it. -/
abbrev Layout := Entries (Compound → Option Tag)

namespace Layout

/-- The compound with all that is made of a source. -/
def fill (layout : Layout) (source : Compound) : Compound :=
  layout.filterMap fun (key, make) => (make source).map (key, ·)

variable {layout : Layout}

theorem keys_fill_sublist (layout : Layout) (source : Compound) :
    (layout.fill source).keys.Sublist (Entries.keys layout) :=
  Entries.keys_filterMap_sublist (fun make : Compound → Option Tag => make source) layout

/-- Under each key there is what is made for it. -/
theorem get?_fill (distinct : Entries.Distinct layout) (source : Compound) {key : String}
    {make : Compound → Option Tag} (h : Entries.get? layout key = some make) :
    (layout.fill source).get? key = make source := by
  rw [fill, Entries.get?_filterMap (fun make => make source) distinct, h]
  rfl

/-- A key is there exactly if something is made for it. -/
theorem mem_keys_fill_iff (distinct : Entries.Distinct layout) (source : Compound) {key : String}
    {make : Compound → Option Tag} (h : Entries.get? layout key = some make) :
    key ∈ (layout.fill source).keys ↔ ∃ tag, make source = some tag := by
  rw [← Entries.isSome_get?, get?_fill distinct source h, Option.isSome_iff_exists]

/-- Sources of which the same is made for every key are filled in alike. -/
theorem fill_congr {c d : Compound} (h : ∀ pair ∈ layout, pair.2 c = pair.2 d) :
    layout.fill c = layout.fill d :=
  List.filterMap_congr fun pair hpair => congrArg (Option.map (pair.1, ·)) (h pair hpair)

/-- What is put under a new key comes last. -/
theorem putIfAny_fill {key : String} (h : key ∉ Entries.keys layout)
    (make : Compound → Option Tag) (source : Compound) :
    putIfAny (layout.fill source) key (make source) =
      Layout.fill (layout ++ [(key, make)]) source := by
  have hnew : key ∉ (layout.fill source).keys :=
    fun hmem => h ((keys_fill_sublist layout source).mem hmem)
  unfold fill at hnew ⊢
  rw [List.filterMap_append]
  cases hmade : make source with
  | none => simp [putIfAny, hmade]
  | some tag => simpa [putIfAny, hmade] using Entries.insert_of_notMem hnew

end Layout

/-! ## The layouts of the converters -/

/-- The face for a sherd. -/
def face (items : ItemMapping) (sherd : String) : String :=
  (items.get? sherd).getD defaultSherd

/-- The faces of a pot. -/
def facesFor? (items : ItemMapping) (source : Compound) : Option Tag :=
  (source.getStrings? "sherds").map fun sherds =>
    .list (sherds.map fun sherd => .string (face items sherd))

/-- What a pot has: a face for each sherd, its item and its loot. -/
def potLayout (items : ItemMapping) : Layout :=
  [("sherds", facesFor? items),
    ("item", fun source => stackFor? items source "item"),
    ("LootTable", fun source => childOfKind? source "LootTable" .string),
    ("LootTableSeed", fun source => childOfKind? source "LootTableSeed" .int)]

theorem distinct_potLayout (items : ItemMapping) : Entries.Distinct (potLayout items) := by
  simp [Entries.Distinct, potLayout]

/-- What a gateway has: its age in the wider kind, and the exit under a name of its own. -/
def gatewayLayout : Layout :=
  [("Age", fun source => (source.getInt? "Age").map fun age => .long age.toInt64),
    ("exit_portal", fun source => (source.getInts? "ExitPortal").map .intArray)]

theorem distinct_gatewayLayout : Entries.Distinct gatewayLayout := by
  simp [Entries.Distinct, gatewayLayout]

/-- What a comparator has: the strength of its signal. -/
def comparatorLayout : Layout :=
  [("OutputSignal", fun source => childOfKind? source "OutputSignal" .int)]

theorem distinct_comparatorLayout : Entries.Distinct comparatorLayout := by
  simp [Entries.Distinct, comparatorLayout]

theorem value_faceFor (items : ItemMapping) (sherd : String) :
    (faceFor items sherd).value = face items sherd := by
  unfold faceFor face
  cases items.get? sherd with
  | some id => rfl
  | none => by_cases hblank : sherd = "" <;> simp [hblank]

/-- The faces of a pot, in a compound of their own. -/
def facesOf (items : ItemMapping) (source : Compound) : Logged Compound :=
  match source.getStrings? "sherds" with
  | none => pure []
  | some sherds => do
    let faces ← sherds.mapM (faceFor items)
    pure [("sherds", .list (faces.map .string))]

theorem value_facesOf (items : ItemMapping) (source : Compound) :
    (facesOf items source).value = Layout.fill [("sherds", facesFor? items)] source := by
  cases hsherds : source.getStrings? "sherds" with
  | none => simp [facesOf, Layout.fill, facesFor?, hsherds]
  | some sherds =>
    simp [facesOf, Layout.fill, facesFor?, hsherds, Logged.value_mapM, value_faceFor,
      Function.comp_def]

/-- A pot is converted face by face, and its item and its loot are copied behind the faces. -/
theorem convertPot_eq (items : ItemMapping) (source : Compound) :
    convertPot items source = do
      let target ← facesOf items source
      let target ← copyItem items source target "item"
      let (_, target) ← copy source target "LootTable" .string
      let (_, target) ← copy source target "LootTableSeed" .int
      return target := by
  unfold convertPot facesOf
  cases source.getStrings? "sherds" with
  | none => rfl
  | some sherds => simp only [bind_assoc, Entries.insert]

theorem value_convertPot (items : ItemMapping) (source : Compound) :
    (convertPot items source).value = (potLayout items).fill source := by
  rw [convertPot_eq]
  simp only [Logged.value_bind, value_facesOf, value_copyItem, value_copy, Logged.value_pure]
  -- each child is put behind those before it
  rw [Layout.putIfAny_fill (by simp) fun source => stackFor? items source "item",
    Layout.putIfAny_fill (by simp) fun source => childOfKind? source "LootTable" .string,
    Layout.putIfAny_fill (by simp) fun source => childOfKind? source "LootTableSeed" .int]
  rfl

theorem value_convertGateway (items : ItemMapping) (source : Compound) :
    (convertGateway items source).value = gatewayLayout.fill source := by
  unfold convertGateway gatewayLayout Layout.fill
  cases hage : source.getInt? "Age" <;> cases hexit : source.getInts? "ExitPortal" <;>
    simp [hage, hexit]

theorem value_convertComparator (items : ItemMapping) (source : Compound) :
    (convertComparator items source).value = comparatorLayout.fill source := by
  unfold convertComparator
  simp only [Logged.value_bind, value_copy, Logged.value_pure]
  exact Layout.putIfAny_fill (by simp : _ ∉ Entries.keys [])
    (fun source => childOfKind? source "OutputSignal" .int) source

/-- The layouts by the identifiers of block entities. -/
def layouts (items : ItemMapping) : Entries Layout :=
  [("DecoratedPot", potLayout items), ("EndGateway", gatewayLayout),
    ("Comparator", comparatorLayout)]

/-- Every converter fills in its layout. -/
theorem value_convert (items : ItemMapping) (identifier : String) (source : Compound) :
    (convert items identifier source).value =
      (Entries.get? (layouts items) identifier).map (·.fill source) := by
  by_cases hpot : "DecoratedPot" = identifier
  · subst hpot
    exact congrArg some (value_convertPot items source)
  by_cases hgateway : "EndGateway" = identifier
  · subst hgateway
    exact congrArg some (value_convertGateway items source)
  by_cases hcomparator : "Comparator" = identifier
  · subst hcomparator
    exact congrArg some (value_convertComparator items source)
  · simp [convert, converter?, converters, layouts, Entries.get?, hpot, hgateway, hcomparator]

end BlockData.BlockEntity
