import BlockData.Proofs.BlockEntity.Layout
import BlockData.Tag.Text

/-!
# What converters look at, and what they leave

A converter looks at a few places of its source and at nothing else: sources that agree there are
converted to the same compound, and so to the same text.  The children of this compound stand in a
fixed order, each of them exactly if its place in the source has the shape that is needed, and
numbers are carried over as they are.

* `inputs` lists the places that each converter looks at;
* `PotOutput`, `GatewayOutput` and `ComparatorOutput` say what the converters leave;
* `converters_look_at_their_own_places` puts both together.
-/

namespace BlockData.BlockEntity

/-! ## Places -/

/-- A place of a source that a converter looks at. -/
inductive Place where
  | child (key : String)
  /-- Whether a child is a compound, and its children under some keys if so. -/
  | compound (key : String) (inner : List String)

/-- Two sources have equal children under a key, or both have none. -/
def AgreeUnder (c d : Compound) (key : String) : Prop :=
  Option.Rel (fun a b => Tag.same a b) (c.get? key) (d.get? key)

/-- Two sources agree at a place. -/
def Place.Agree (c d : Compound) : Place → Prop
  | child key => AgreeUnder c d key
  | compound key inner =>
    Option.Rel (fun a b => ∀ key ∈ inner, AgreeUnder a b key) (c.getCompound? key)
      (d.getCompound? key)

/-- The places that the converters look at, by the identifiers of block entities. -/
def inputs : Entries (List Place) :=
  [("DecoratedPot", [.child "sherds", .compound "item" ["Name", "Count"], .child "LootTable",
      .child "LootTableSeed"]),
    ("EndGateway", [.child "Age", .child "ExitPortal"]),
    ("Comparator", [.child "OutputSignal"])]

/-! ## What is made of sources that agree -/

variable {c d : Compound} {key : String}

theorem AgreeUnder.getInt?_eq (h : AgreeUnder c d key) : c.getInt? key = d.getInt? key :=
  Tag.bind_congr_of_rel Tag.asInt?_congr h

theorem AgreeUnder.getString?_eq (h : AgreeUnder c d key) : c.getString? key = d.getString? key :=
  Tag.bind_congr_of_rel Tag.asString?_congr h

theorem AgreeUnder.getInts?_eq (h : AgreeUnder c d key) : c.getInts? key = d.getInts? key := by
  unfold Compound.getInts? Compound.getList?
  rw [Option.bind_assoc, Option.bind_assoc]
  exact Tag.bind_congr_of_rel (fun _ _ => Tag.asList?_bind_congr Tag.asInt?_congr) h

theorem AgreeUnder.getStrings?_eq (h : AgreeUnder c d key) :
    c.getStrings? key = d.getStrings? key := by
  unfold Compound.getStrings? Compound.getList?
  rw [Option.bind_assoc, Option.bind_assoc]
  exact Tag.bind_congr_of_rel (fun _ _ => Tag.asList?_bind_congr Tag.asString?_congr) h

theorem itemCount_congr {a b : Compound} (h : AgreeUnder a b "Count") :
    itemCount a = itemCount b := by
  unfold itemCount
  rcases rel_cases h with ⟨ha, hb⟩ | ⟨x, y, ha, hb, hsame⟩
  · rw [ha, hb]
  · have hkind := Tag.kind_eq_of_same hsame
    rw [ha, hb]
    cases x <;> cases y <;> simp_all [Tag.kind, Tag.same]

/-- Stacks with equal names and numbers are the same, whatever else there is about them. -/
theorem stack?_congr {a b : Compound} (hname : AgreeUnder a b "Name")
    (hcount : AgreeUnder a b "Count") : stack? a = stack? b := by
  unfold stack?
  rw [hname.getString?_eq, itemCount_congr hcount]

/-- Stacks under a key have the same counterpart if they agree in their names and numbers. -/
theorem stackFor?_congr (items : ItemMapping)
    (h : Place.Agree c d (.compound key ["Name", "Count"])) :
    stackFor? items c key = stackFor? items d key := by
  unfold stackFor?
  rcases rel_cases h with ⟨hc, hd⟩ | ⟨a, b, hc, hd, hinner⟩
  · rw [hc, hd]
  · have hstack := stack?_congr (hinner "Name" (by simp)) (hinner "Count" (by simp))
    rw [hc, hd, Option.bind_some, Option.bind_some, hstack]

theorem fill_potLayout_congr (items : ItemMapping) (hsherds : AgreeUnder c d "sherds")
    (hitem : Place.Agree c d (.compound "item" ["Name", "Count"]))
    (hloot : AgreeUnder c d "LootTable") (hseed : AgreeUnder c d "LootTableSeed") :
    (potLayout items).fill c = (potLayout items).fill d := by
  refine Layout.fill_congr ?_
  simp only [potLayout, facesFor?, List.forall_mem_cons, hsherds.getStrings?_eq,
    stackFor?_congr items hitem, childOfKind?_string, childOfKind?_int, hloot.getString?_eq,
    hseed.getInt?_eq]
  simp

theorem fill_gatewayLayout_congr (hage : AgreeUnder c d "Age")
    (hexit : AgreeUnder c d "ExitPortal") : gatewayLayout.fill c = gatewayLayout.fill d := by
  refine Layout.fill_congr ?_
  simp only [gatewayLayout, List.forall_mem_cons, hage.getInt?_eq, hexit.getInts?_eq]
  simp

theorem fill_comparatorLayout_congr (hsignal : AgreeUnder c d "OutputSignal") :
    comparatorLayout.fill c = comparatorLayout.fill d := by
  refine Layout.fill_congr ?_
  simp only [comparatorLayout, List.forall_mem_cons, childOfKind?_int, hsignal.getInt?_eq]
  simp

/-- Sources that agree wherever a converter looks are converted to the same compound. -/
theorem convert_congr (items : ItemMapping) {identifier : String} {places : List Place}
    (hplaces : (identifier, places) ∈ inputs) (h : ∀ place ∈ places, place.Agree c d) :
    ∃ target, (convert items identifier c).value = some target ∧
      (convert items identifier d).value = some target := by
  rw [value_convert, value_convert]
  simp only [inputs, List.mem_cons, List.not_mem_nil, or_false, Prod.mk.injEq] at hplaces
  rcases hplaces with ⟨rfl, rfl⟩ | ⟨rfl, rfl⟩ | ⟨rfl, rfl⟩
  · have hfill := fill_potLayout_congr items (h (.child "sherds") (by simp)) (h _ (by simp))
      (h (.child "LootTable") (by simp)) (h (.child "LootTableSeed") (by simp))
    exact ⟨_, rfl, congrArg some hfill.symm⟩
  · have hfill := fill_gatewayLayout_congr (h (.child "Age") (by simp))
      (h (.child "ExitPortal") (by simp))
    exact ⟨_, rfl, congrArg some hfill.symm⟩
  · have hfill := fill_comparatorLayout_congr (h (.child "OutputSignal") (by simp))
    exact ⟨_, rfl, congrArg some hfill.symm⟩

/-! ## What converters leave -/

/-- What becomes of a pot: which children there are, and in what order. -/
structure PotOutput (source pot : Compound) : Prop where
  order : pot.keys.Sublist ["sherds", "item", "LootTable", "LootTableSeed"]
  sherds : "sherds" ∈ pot.keys ↔
    ∃ sherds : List String, source.get? "sherds" = some (.list (sherds.map .string))
  item : "item" ∈ pot.keys ↔
    ∃ item name count, source.get? "item" = some (.compound item) ∧ IsStack item name count
  loot : "LootTable" ∈ pot.keys ↔ ∃ text, source.get? "LootTable" = some (.string text)
  seed : "LootTableSeed" ∈ pot.keys ↔ ∃ n, source.get? "LootTableSeed" = some (.int n)
  lootKept : ∀ text, source.get? "LootTable" = some (.string text) →
    pot.get? "LootTable" = some (.string text)
  seedKept : ∀ n, source.get? "LootTableSeed" = some (.int n) →
    pot.get? "LootTableSeed" = some (.int n)

/-- What becomes of a gateway. -/
structure GatewayOutput (source gateway : Compound) : Prop where
  order : gateway.keys.Sublist ["Age", "exit_portal"]
  age : "Age" ∈ gateway.keys ↔ ∃ n, source.get? "Age" = some (.int n)
  exit : "exit_portal" ∈ gateway.keys ↔
    ∃ place : List Int32, source.get? "ExitPortal" = some (.list (place.map .int))
  /-- The age has a wider field, and is the same number. -/
  ageKept : ∀ n, source.get? "Age" = some (.int n) →
    ∃ wide : Int64, gateway.get? "Age" = some (.long wide) ∧ wide.toInt = n.toInt
  exitKept : ∀ place : List Int32, source.get? "ExitPortal" = some (.list (place.map .int)) →
    gateway.get? "exit_portal" = some (.intArray place)

/-- What becomes of a comparator. -/
structure ComparatorOutput (source comparator : Compound) : Prop where
  order : comparator.keys.Sublist ["OutputSignal"]
  signal : "OutputSignal" ∈ comparator.keys ↔ ∃ n, source.get? "OutputSignal" = some (.int n)
  signalKept : ∀ n, source.get? "OutputSignal" = some (.int n) →
    comparator.get? "OutputSignal" = some (.int n)

theorem exists_stackFor?_iff (items : ItemMapping) (source : Compound) (key : String) :
    (∃ tag, stackFor? items source key = some tag) ↔
      ∃ item name count, source.get? key = some (.compound item) ∧ IsStack item name count := by
  constructor
  · rintro ⟨tag, htag⟩
    obtain ⟨item, name, count, hitem, hstack, -⟩ := stackFor?_eq_some_iff.1 htag
    exact ⟨item, name, count.toInt, hitem, hstack⟩
  · rintro ⟨item, name, count, hitem, hstack⟩
    obtain ⟨number, rfl⟩ := hstack.exists_number
    exact ⟨_, stackFor?_eq_some_iff.2 ⟨item, name, number, hitem, hstack, rfl⟩⟩

theorem potOutput_fill (items : ItemMapping) (source : Compound) :
    PotOutput source ((potLayout items).fill source) := by
  have distinct := distinct_potLayout items
  -- the places of the layout
  have hitem : Entries.get? (potLayout items) "item" =
      some fun source => stackFor? items source "item" := rfl
  have hloot : Entries.get? (potLayout items) "LootTable" =
      some fun source => childOfKind? source "LootTable" .string := rfl
  have hseed : Entries.get? (potLayout items) "LootTableSeed" =
      some fun source => childOfKind? source "LootTableSeed" .int := rfl
  refine
    { order := (potLayout items).keys_fill_sublist source
      sherds := ?_
      item := ?_
      loot := ?_
      seed := ?_
      lootKept := ?_
      seedKept := ?_ }
  · rw [Layout.mem_keys_fill_iff distinct source rfl]
    simp [facesFor?, Compound.getStrings?_eq_some_iff]
  · rw [Layout.mem_keys_fill_iff distinct source hitem, exists_stackFor?_iff]
  · rw [Layout.mem_keys_fill_iff distinct source hloot]
    simp [childOfKind?_string, Compound.getString?_eq_some_iff]
  · rw [Layout.mem_keys_fill_iff distinct source hseed]
    simp [childOfKind?_int, Compound.getInt?_eq_some_iff]
  · intro text h
    rw [Layout.get?_fill distinct source hloot, childOfKind?_eq_some_iff]
    exact ⟨h, rfl⟩
  · intro n h
    rw [Layout.get?_fill distinct source hseed, childOfKind?_eq_some_iff]
    exact ⟨h, rfl⟩

theorem gatewayOutput_fill (source : Compound) :
    GatewayOutput source (gatewayLayout.fill source) := by
  have hage : Entries.get? gatewayLayout "Age" =
      some fun source => (source.getInt? "Age").map fun age => .long age.toInt64 := rfl
  have hexit : Entries.get? gatewayLayout "exit_portal" =
      some fun source => (source.getInts? "ExitPortal").map .intArray := rfl
  refine
    { order := gatewayLayout.keys_fill_sublist source
      age := ?_
      exit := ?_
      ageKept := ?_
      exitKept := ?_ }
  · rw [Layout.mem_keys_fill_iff distinct_gatewayLayout source hage]
    simp [Compound.getInt?_eq_some_iff]
  · rw [Layout.mem_keys_fill_iff distinct_gatewayLayout source hexit]
    simp [Compound.getInts?_eq_some_iff]
  · intro n h
    refine ⟨n.toInt64, ?_, n.toInt_toInt64⟩
    rw [Layout.get?_fill distinct_gatewayLayout source hage, Compound.getInt?_eq_some_iff.2 h]
    rfl
  · intro place h
    rw [Layout.get?_fill distinct_gatewayLayout source hexit, Compound.getInts?_eq_some_iff.2 h]
    rfl

theorem comparatorOutput_fill (source : Compound) :
    ComparatorOutput source (comparatorLayout.fill source) := by
  have hsignal : Entries.get? comparatorLayout "OutputSignal" =
      some fun source => childOfKind? source "OutputSignal" .int := rfl
  refine
    { order := comparatorLayout.keys_fill_sublist source
      signal := ?_
      signalKept := ?_ }
  · rw [Layout.mem_keys_fill_iff distinct_comparatorLayout source hsignal]
    simp [childOfKind?_int, Compound.getInt?_eq_some_iff]
  · intro n h
    rw [Layout.get?_fill distinct_comparatorLayout source hsignal, childOfKind?_eq_some_iff]
    exact ⟨h, rfl⟩

/-- For each known identifier there is a list of places, and sources that agree there are converted
to the same text in either layout, whatever else they hold.  What they are converted to has its
children in a fixed order, each exactly if its place in the source has the right shape, and with the
same numbers. -/
theorem converters_look_at_their_own_places (items : ItemMapping) :
    (inputs.keys = known ∧
      ∀ identifier places, (identifier, places) ∈ inputs → ∀ c d : Compound,
        (∀ place ∈ places, place.Agree c d) →
        ∃ target target', (convert items identifier c).value = some target ∧
          (convert items identifier d).value = some target' ∧
          ∀ layout : Json.Layout, target.toJson.print layout = target'.toJson.print layout) ∧
    ∀ source : Compound,
      (∃ pot, (convert items "DecoratedPot" source).value = some pot ∧ PotOutput source pot) ∧
      (∃ gateway, (convert items "EndGateway" source).value = some gateway ∧
        GatewayOutput source gateway) ∧
      ∃ comparator, (convert items "Comparator" source).value = some comparator ∧
        ComparatorOutput source comparator := by
  refine ⟨⟨rfl, ?_⟩, fun source => ⟨?_, ?_, ?_⟩⟩
  · intro identifier places hplaces c d h
    obtain ⟨target, hc, hd⟩ := convert_congr items hplaces h
    exact ⟨target, target, hc, hd, fun _ => rfl⟩
  · exact ⟨_, value_convert items "DecoratedPot" source, potOutput_fill items source⟩
  · exact ⟨_, value_convert items "EndGateway" source, gatewayOutput_fill source⟩
  · exact ⟨_, value_convert items "Comparator" source, comparatorOutput_fill source⟩

/-- Two pots that differ in the order of their children and in what there is about the item and
beside it, and a gateway of the least age there is, with a place that is none. -/
theorem pots_are_converted_alike :
    let items : ItemMapping := .ofList [("x:skull", "x:skull_face")]
    let c : Compound := [("id", .string "DecoratedPot"), ("LootTableSeed", .int (-7)),
      ("sherds", .list [.string "x:skull", .string ""]),
      ("item", .compound [("Damage", .short 3), ("Name", .string "x:egg")])]
    let d : Compound := [("item", .compound [("Name", .string "x:egg"), ("Slot", .byte 1)]),
      ("sherds", .list [.string "x:skull", .string ""]), ("LootTableSeed", .int (-7)),
      ("extra", .compound [("x", .double 0.5)])]
    let gateway : Compound := [("ExitPortal", .list [.int 1, .string "x"]),
      ("Age", .int (-2147483648))]
    ((∀ place ∈ [Place.child "sherds", .compound "item" ["Name", "Count"], .child "LootTable",
        .child "LootTableSeed"], place.Agree c d) ∧
      ∃ target target', (convert items "DecoratedPot" c).value = some target ∧
        (convert items "DecoratedPot" d).value = some target' ∧
        target.toJson.print .compact = target'.toJson.print .compact) ∧
    ∃ target, (convert items "EndGateway" gateway).value = some target ∧
      "exit_portal" ∉ target.keys ∧
      ∃ wide : Int64, target.get? "Age" = some (.long wide) ∧ wide.toInt = -2147483648 := by
  intro items c d gateway
  have h := converters_look_at_their_own_places items
  have hagree : ∀ place ∈ [Place.child "sherds", .compound "item" ["Name", "Count"],
      .child "LootTable", .child "LootTableSeed"], place.Agree c d := by
    simp only [List.forall_mem_cons, List.not_mem_nil, false_implies, implies_true, and_true]
    refine ⟨.some (by decide +kernel), .some ?_, .none, .some (by decide +kernel)⟩
    simp only [List.forall_mem_cons, List.not_mem_nil, false_implies, implies_true, and_true]
    exact ⟨.some (by decide +kernel), .none⟩
  obtain ⟨target, target', hc, hd, htext⟩ := h.1.2 "DecoratedPot" _ (by simp [inputs]) c d hagree
  obtain ⟨place, hplace, houtput⟩ := (h.2 gateway).2.1
  refine ⟨⟨hagree, target, target', hc, hd, htext .compact⟩, place, hplace, ?_,
    houtput.ageKept _ rfl⟩
  rw [houtput.exit]
  -- a list with a text in it is no list of numbers
  rintro ⟨numbers, hnumbers⟩
  have hitems : [.int 1, .string "x"] = numbers.map Tag.int :=
    Tag.list.inj (Option.some.inj hnumbers)
  have hlast : Tag.string "x" ∈ numbers.map Tag.int := by
    rw [← hitems]
    simp
  simp at hlast

end BlockData.BlockEntity
