import BlockData.BlockEntity.Copy
import BlockData.Proofs.Tag.Children

/-!
# What copying changes

Copying a child, as it is or as a stack of items, puts one child into the target, or leaves the
target as it is.  A child that is put takes the place of the one under its key, or comes last.

* `Puts` says what it is to put a child into a compound, `IsStack` what a stack of items is;
* `value_copy` and `value_copyItem` say what is put, if anything;
* `copying_changes_one_child` puts them together.
-/

namespace BlockData.BlockEntity

/-! ## Putting a child -/

/-- What it does to a compound to put a child under a key. -/
structure Puts (target : Compound) (key : String) (child : Tag) (after : Compound) : Prop where
  found : after.get? key = some child
  /-- What is found under other keys stays. -/
  others : ∀ other, other ≠ key → after.get? other = target.get? other
  /-- All other entries stay, in their order. -/
  rest : after.filter (·.1 ≠ key) = target.filter (·.1 ≠ key)
  /-- The key keeps its place; a new one comes last. -/
  keys : after.keys = if key ∈ target.keys then target.keys else target.keys ++ [key]

theorem puts_insert (target : Compound) (key : String) (child : Tag) :
    Puts target key child (target.insert key child) where
  found := by rw [Entries.get?_insert, if_pos rfl]
  others other hother := by rw [Entries.get?_insert, if_neg (Ne.symm hother)]
  rest := Entries.filter_insert key child target
  keys := Entries.keys_insert key child target

/-- Put a child under a key, if there is one to put. -/
def putIfAny (target : Compound) (key : String) (child : Option Tag) : Compound :=
  child.elim target (target.insert key ·)

/-! ## Copying a child -/

/-- The child under a key, if it is of the kind wanted. -/
def childOfKind? (source : Compound) (key : String) (kind : Tag.Kind) : Option Tag :=
  (source.get? key).filter (·.kind = kind)

theorem childOfKind?_eq_some_iff {source : Compound} {key : String} {kind : Tag.Kind}
    {child : Tag} : childOfKind? source key kind = some child ↔
      source.get? key = some child ∧ child.kind = kind := by
  rw [childOfKind?, Option.filter_eq_some_iff, decide_eq_true_iff]

theorem childOfKind?_string (source : Compound) (key : String) :
    childOfKind? source key .string = (source.getString? key).map .string := by
  unfold childOfKind? Compound.getString?
  cases source.get? key with
  | none => rfl
  | some child => cases child <;> rfl

theorem childOfKind?_int (source : Compound) (key : String) :
    childOfKind? source key .int = (source.getInt? key).map .int := by
  unfold childOfKind? Compound.getInt?
  cases source.get? key with
  | none => rfl
  | some child => cases child <;> rfl

/-- A child of the kind wanted is put, and nothing else is. -/
theorem value_copy (source target : Compound) (key : String) (kind : Tag.Kind) :
    (copy source target key kind).value =
      ((childOfKind? source key kind).isSome,
        putIfAny target key (childOfKind? source key kind)) := by
  unfold copy childOfKind?
  cases source.get? key with
  | none => rfl
  | some child =>
    by_cases hkind : child.kind = kind
    · simp [hkind, putIfAny, Option.filter_some]
    · simp [hkind, putIfAny, Option.filter_some]

/-! ## Stacks of items -/

/-- How many items a stack says it has: the whole number under `Count` if it has 32 bits or fewer,
and one without it. -/
def declaredCount (item : Compound) : Int :=
  match item.get? "Count" with
  | some (.byte n) => n.toInt
  | some (.short n) => n.toInt
  | some (.int n) => n.toInt
  | _ => 1

/-- A stack of some number of items with a name. -/
structure IsStack (item : Compound) (name : String) (count : Int) : Prop where
  named : item.get? "Name" = some (.string name)
  notBlank : name ≠ ""
  notAir : name ≠ "minecraft:air"
  counted : declaredCount item = count
  positive : 0 < count

/-- The number of items keeps its sign when it is widened. -/
theorem toInt_itemCount (item : Compound) : (itemCount item).toInt = declaredCount item := by
  unfold itemCount declaredCount
  cases item.get? "Count" with
  | none => rfl
  | some tag => cases tag <;> simp

theorem itemCount_le_zero_iff (item : Compound) : itemCount item ≤ 0 ↔ declaredCount item ≤ 0 := by
  rw [Int32.le_iff_toInt_le, toInt_itemCount]
  rfl

/-- What is taken for a stack is one. -/
theorem stack?_eq_some_iff {item : Compound} {name : String} {count : Int32} :
    stack? item = some (name, count) ↔ IsStack item name count.toInt := by
  have hcount : itemCount item = count ↔ declaredCount item = count.toInt := by
    rw [← toInt_itemCount, Int32.toInt_inj]
  have hpositive := itemCount_le_zero_iff item
  constructor
  · intro h
    simp only [stack?, Option.ite_none_left_eq_some, not_or, Option.some.injEq, Prod.mk.injEq] at h
    obtain ⟨⟨hblank, hair, hzero⟩, hname, heq⟩ := h
    have hnamed : item.getString? "Name" = some name := by
      -- a name that is missing counts as a blank one
      cases hfound : item.getString? "Name" with
      | none => simp [hfound] at hblank
      | some text => rw [← hname, hfound, Option.getD_some]
    rw [hname] at hblank hair
    rw [hpositive, hcount.1 heq] at hzero
    exact ⟨Compound.getString?_eq_some_iff.1 hnamed, hblank, hair, hcount.1 heq, Int.not_le.1 hzero⟩
  · rintro ⟨hnamed, hblank, hair, hcounted, hzero⟩
    rw [hcounted] at hpositive
    have hstack : ¬ (name = "" ∨ name = air ∨ itemCount item ≤ 0) := by
      rw [hpositive, not_or, not_or]
      exact ⟨hblank, hair, Int.not_le.2 hzero⟩
    rw [← hcount.2 hcounted]
    simp only [stack?, Compound.getString?_eq_some_iff.2 hnamed, Option.getD_some, if_neg hstack]

/-- The number of items in a stack fits 32 bits. -/
theorem IsStack.exists_number {item : Compound} {name : String} {count : Int}
    (h : IsStack item name count) : ∃ number : Int32, number.toInt = count :=
  ⟨itemCount item, (toInt_itemCount item).trans h.counted⟩

/-- The counterpart of the stack under a key, if there is one. -/
def stackFor? (items : ItemMapping) (source : Compound) (key : String) : Option Tag :=
  ((source.getCompound? key).bind stack?).map fun (name, count) =>
    .compound (stackTag ((items.get? name).getD ItemMapping.defaultItem) count)

theorem value_itemFor (items : ItemMapping) (name : String) :
    (itemFor items name).value = (items.get? name).getD ItemMapping.defaultItem := by
  unfold itemFor
  cases items.get? name <;> rfl

/-- The counterpart of a stack is put, and nothing else is. -/
theorem value_copyItem (items : ItemMapping) (source target : Compound) (key : String) :
    (copyItem items source target key).value =
      putIfAny target key (stackFor? items source key) := by
  unfold copyItem stackFor?
  cases (source.getCompound? key).bind stack? with
  | none => rfl
  | some stack =>
    rw [Logged.value_bind, value_itemFor]
    rfl

/-- There is a counterpart for a stack, and only for a stack. -/
theorem stackFor?_eq_some_iff {items : ItemMapping} {source : Compound} {key : String} {tag : Tag} :
    stackFor? items source key = some tag ↔
      ∃ item name count, source.get? key = some (.compound item) ∧
        IsStack item name (Int32.toInt count) ∧
        tag = .compound [("id", .string ((items.get? name).getD ItemMapping.defaultItem)),
          ("count", .int count)] := by
  simp only [stackFor?, Option.map_eq_some_iff, Option.bind_eq_some_iff,
    Compound.getCompound?_eq_some_iff, Prod.exists, stack?_eq_some_iff, stackTag]
  constructor
  · rintro ⟨name, count, ⟨item, hitem, hstack⟩, rfl⟩
    exact ⟨item, name, count, hitem, hstack, rfl⟩
  · rintro ⟨item, name, count, hitem, hstack, rfl⟩
    exact ⟨name, count, ⟨item, hitem, hstack⟩, rfl⟩

/-! ## Both ways to copy -/

/-- Copying a child changes at most this child of the target.  A child is copied as it is exactly if
it is of the kind wanted.  It is copied as a stack of items exactly if it is one; then the child of
the target has the counterpart of the name and as many items.  What is copied takes the place of the
child under its key, or comes last, and all else stays; if nothing is copied, the target is as it
was. -/
theorem copying_changes_one_child (source target : Compound) (key : String) :
    (∀ kind : Tag.Kind,
      let result := (copy source target key kind).value
      (result.1 = true ↔ ∃ child, source.get? key = some child ∧ child.kind = kind) ∧
      (result.1 = true → ∃ child, source.get? key = some child ∧
        Puts target key child result.2) ∧
      (result.1 = false → result.2 = target)) ∧
    ∀ items : ItemMapping,
      let after := (copyItem items source target key).value
      (∀ item name count, source.get? key = some (.compound item) → IsStack item name count →
        ∃ number : Int32, number.toInt = count ∧ 1 ≤ count ∧ count ≤ 2147483647 ∧
          Puts target key (.compound [("id", .string ((items.get? name).getD "minecraft:stone")),
            ("count", .int number)]) after) ∧
      ((¬ ∃ item name count, source.get? key = some (.compound item) ∧ IsStack item name count) →
        after = target) := by
  constructor
  · intro kind result
    have hresult : result = ((childOfKind? source key kind).isSome,
        putIfAny target key (childOfKind? source key kind)) := value_copy source target key kind
    rw [hresult]
    cases hchild : childOfKind? source key kind with
    | some child =>
      have hfound := childOfKind?_eq_some_iff.1 hchild
      refine ⟨iff_of_true rfl ⟨child, hfound⟩, ?_, by simp⟩
      intro _
      exact ⟨child, hfound.1, puts_insert target key child⟩
    | none =>
      have hnot : ¬ ∃ child, source.get? key = some child ∧ child.kind = kind := by
        rintro ⟨child, hfound⟩
        simp [childOfKind?_eq_some_iff.2 hfound] at hchild
      exact ⟨iff_of_false (by simp) hnot, by simp, fun _ => rfl⟩
  · intro items after
    have hafter : after = putIfAny target key (stackFor? items source key) :=
      value_copyItem items source target key
    rw [hafter]
    constructor
    · -- a count has no more than thirty-two bits
      intro item name count hitem hstack
      obtain ⟨number, rfl⟩ := hstack.exists_number
      have hnumber := number.toInt_lt
      rw [stackFor?_eq_some_iff.2 ⟨item, name, number, hitem, hstack, rfl⟩]
      exact ⟨number, rfl, hstack.positive, by omega, puts_insert target key _⟩
    · intro hnot
      -- what is found would have been a stack
      have hnone : stackFor? items source key = none := by
        rw [Option.eq_none_iff_forall_ne_some]
        intro tag htag
        obtain ⟨item, name, count, hitem, hstack, -⟩ := stackFor?_eq_some_iff.1 htag
        exact hnot ⟨item, name, count.toInt, hitem, hstack⟩
      rw [hnone]
      rfl

/-- A number is copied behind what is there, and not as a text.  Three hundred apples take the place
of a number, and a stack of less than one leaves it there. -/
theorem copying_apples_changes_one_child :
    let apples : Compound := [("Count", .short 300), ("Name", .string "x:apple")]
    let debt : Compound := [("Name", .string "x:apple"), ("Count", .byte (-1))]
    let source : Compound := [("seed", .int (-7)), ("item", .compound apples)]
    let target : Compound := [("item", .int 1), ("age", .byte 1)]
    let items : ItemMapping := .ofList [("x:apple", "x:golden_apple")]
    ((copy source target "seed" .int).value.1 = true ∧
      (copy source target "seed" .int).value.2.keys = ["item", "age", "seed"]) ∧
    ((copy source target "seed" .string).value.1 = false ∧
      (copy source target "seed" .string).value.2 = target) ∧
    (IsStack apples "x:apple" 300 ∧
      (copyItem items source target "item").value.keys = ["item", "age"] ∧
      ∃ number : Int32, number.toInt = 300 ∧
        (copyItem items source target "item").value.get? "item" =
          some (.compound [("id", .string "x:golden_apple"), ("count", .int number)])) ∧
    ((¬ ∃ name count, IsStack debt name count) ∧
      (copyItem items [("item", .compound debt)] target "item").value = target) := by
  intro apples debt source target items
  have hstack : IsStack apples "x:apple" 300 := ⟨rfl, by decide, by decide, rfl, by decide⟩
  -- what is owed is no stack
  have hdebt : ¬ ∃ name count, IsStack debt name count := by
    rintro ⟨name, count, h⟩
    have hcount : -1 = count := h.counted
    have hpositive := h.positive
    omega
  have hseed := (copying_changes_one_child source target "seed").1
  obtain ⟨child, hchild, hput⟩ := (hseed .int).2.1 rfl
  obtain ⟨number, hnumber, -, -, hitem⟩ :=
    (copying_changes_one_child source target "item").2 items |>.1 apples _ _ rfl hstack
  refine ⟨⟨rfl, hput.keys⟩, ⟨rfl, (hseed .string).2.2 rfl⟩,
    ⟨hstack, hitem.keys, number, hnumber, hitem.found⟩, hdebt, ?_⟩
  refine ((copying_changes_one_child [("item", .compound debt)] target "item").2 items).2 ?_
  rintro ⟨item, name, count, hfound, h⟩
  obtain rfl : debt = item := by simpa [Entries.get?] using hfound
  exact hdebt ⟨name, count, h⟩

end BlockData.BlockEntity
