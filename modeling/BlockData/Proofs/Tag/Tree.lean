import BlockData.Tag.Basic

/-!
# Shapes of tag trees

What a tag tree may need to be kept by its text: no numbers with a fraction, and distinct keys
in every compound; and how deeply its text nests.
-/

namespace BlockData

namespace Tag

mutual

/-- No node of a tree holds a number with a fraction. -/
def isExact : Tag → Bool
  | .float _ | .double _ => false
  | .byte _ | .short _ | .int _ | .long _ | .string _ => true
  | .byteArray _ | .intArray _ | .longArray _ => true
  | .list items => itemsExact items
  | .compound children => childrenExact children

/-- No item of a list holds a number with a fraction. -/
def itemsExact : List Tag → Bool
  | [] => true
  | tag :: rest => isExact tag && itemsExact rest

/-- No child holds a number with a fraction. -/
def childrenExact : List (String × Tag) → Bool
  | [] => true
  | (_, tag) :: rest => isExact tag && childrenExact rest

end

mutual

/-- The keys of every compound in a tree are distinct. -/
def isKeyed : Tag → Bool
  | .byte _ | .short _ | .int _ | .long _ | .float _ | .double _ | .string _ => true
  | .byteArray _ | .intArray _ | .longArray _ => true
  | .list items => itemsKeyed items
  | .compound children => decide (Entries.Distinct children) && childrenKeyed children

/-- The keys of every compound in the items of a list are distinct. -/
def itemsKeyed : List Tag → Bool
  | [] => true
  | tag :: rest => isKeyed tag && itemsKeyed rest

/-- The keys of every compound below children are distinct. -/
def childrenKeyed : List (String × Tag) → Bool
  | [] => true
  | (_, tag) :: rest => isKeyed tag && childrenKeyed rest

end

mutual

/-- How deeply the text of a tag nests: a tag is an object, and what is in an array, a list or
a compound is an array or object in it. -/
def depth : Tag → Nat
  | .byte _ | .short _ | .int _ | .long _ | .float _ | .double _ | .string _ => 1
  | .byteArray _ | .intArray _ | .longArray _ => 2
  | .list items => itemsDepth items + 2
  | .compound children => childrenDepth children + 2

/-- The depth of the deepest item. -/
def itemsDepth : List Tag → Nat
  | [] => 0
  | tag :: rest => max (depth tag) (itemsDepth rest)

/-- The depth of the deepest child. -/
def childrenDepth : List (String × Tag) → Nat
  | [] => 0
  | (_, tag) :: rest => max (depth tag) (childrenDepth rest)

end

theorem itemsExact_iff (items : List Tag) :
    itemsExact items ↔ ∀ item ∈ items, item.isExact := by
  induction items with
  | nil => simp [itemsExact]
  | cons item rest ih => simp [itemsExact, ih]

theorem itemsKeyed_iff (items : List Tag) :
    itemsKeyed items ↔ ∀ item ∈ items, item.isKeyed := by
  induction items with
  | nil => simp [itemsKeyed]
  | cons item rest ih => simp [itemsKeyed, ih]

theorem childrenExact_iff (children : List (String × Tag)) :
    childrenExact children ↔ ∀ child ∈ children, child.2.isExact := by
  induction children with
  | nil => simp [childrenExact]
  | cons child rest ih => simp [childrenExact, ih]

theorem childrenKeyed_iff (children : List (String × Tag)) :
    childrenKeyed children ↔ ∀ child ∈ children, child.2.isKeyed := by
  induction children with
  | nil => simp [childrenKeyed]
  | cons child rest ih => simp [childrenKeyed, ih]

theorem childrenDepth_le_iff (children : List (String × Tag)) (limit : Nat) :
    childrenDepth children ≤ limit ↔ ∀ child ∈ children, child.2.depth ≤ limit := by
  induction children with
  | nil => simp [childrenDepth]
  | cons child rest ih => rw [childrenDepth, Nat.max_le, ih, List.forall_mem_cons]

end Tag

namespace Compound

/-- No node below a compound holds a number with a fraction. -/
def isExact (c : Compound) : Bool :=
  Tag.childrenExact c

/-- The keys of a compound and of those below it are distinct. -/
def isKeyed (c : Compound) : Bool :=
  decide c.Distinct && Tag.childrenKeyed c

/-- How deeply the text of a compound nests: it is one object around its children. -/
def depth (c : Compound) : Nat :=
  Tag.childrenDepth c + 1

theorem isKeyed_iff {c : Compound} :
    c.isKeyed ↔ c.Distinct ∧ ∀ child ∈ c, child.2.isKeyed := by
  rw [isKeyed, Bool.and_eq_true, decide_eq_true_iff, Tag.childrenKeyed_iff]

end Compound
end BlockData
