import BlockData.Proofs.Tag.Equality

/-!
# Children of a kind

What it means that a text, a number, a compound or a list of such is found under a key, and that
equal children give the same text or number, and lists of the same texts or numbers.
-/

namespace BlockData

namespace Tag

variable {α : Type}

theorem asString?_eq_some_iff {tag : Tag} {text : String} :
    tag.asString? = some text ↔ tag = .string text := by
  cases tag <;> simp [asString?]

theorem asInt?_eq_some_iff {tag : Tag} {n : Int32} : tag.asInt? = some n ↔ tag = .int n := by
  cases tag <;> simp [asInt?]

theorem asList?_eq_some_iff {tag : Tag} {items : List Tag} :
    tag.asList? = some items ↔ tag = .list items := by
  cases tag <;> simp [asList?]

theorem asCompound?_eq_some_iff {tag : Tag} {children : Compound} :
    tag.asCompound? = some children ↔ tag = .compound children := by
  cases tag <;> simp [asCompound?]

/-- The contents of all items are there if each item is the one with its content. -/
theorem mapM_eq_some_iff {f : Tag → Option α} {g : α → Tag}
    (h : ∀ tag content, f tag = some content ↔ tag = g content) {items : List Tag}
    {contents : List α} : items.mapM f = some contents ↔ items = contents.map g := by
  induction items generalizing contents with
  | nil => cases contents <;> simp
  | cons item items ih =>
    rw [List.mapM_cons]
    cases contents with
    | nil => cases f item <;> cases items.mapM f <;> simp
    | cons content contents =>
      rw [List.map_cons, List.cons.injEq, ← h, ← ih]
      cases f item <;> cases items.mapM f <;> simp

/-- Lists with equal items hold the same contents, if equal tags do. -/
theorem mapM_congr {f : Tag → Option α} (h : ∀ a b : Tag, a.same b → f a = f b)
    {items others : List Tag} (hsame : sameItems items others) :
    items.mapM f = others.mapM f := by
  induction items generalizing others with
  | nil =>
    cases others with
    | nil => rfl
    | cons other others => simp [sameItems] at hsame
  | cons item items ih =>
    cases others with
    | nil => simp [sameItems] at hsame
    | cons other others =>
      rw [sameItems, Bool.and_eq_true] at hsame
      rw [List.mapM_cons, List.mapM_cons, h item other hsame.1, ih hsame.2]

/-- Equal tags are lists of the same contents, if equal items have the same content. -/
theorem asList?_bind_congr {f : Tag → Option α} (h : ∀ a b : Tag, a.same b → f a = f b) {a b : Tag}
    (hsame : a.same b) : (a.asList?.bind fun items => items.mapM f) =
      b.asList?.bind fun items => items.mapM f := by
  have hkind := kind_eq_of_same hsame
  cases a <;> cases b <;> simp only [kind, reduceCtorEq] at hkind
  case list.list => exact mapM_congr h hsame
  all_goals rfl

end Tag

namespace Compound

variable {c d : Compound} {key : String}

theorem getString?_eq_some_iff {text : String} :
    c.getString? key = some text ↔ c.get? key = some (.string text) := by
  simp [getString?, Option.bind_eq_some_iff, Tag.asString?_eq_some_iff]

theorem getInt?_eq_some_iff {n : Int32} :
    c.getInt? key = some n ↔ c.get? key = some (.int n) := by
  simp [getInt?, Option.bind_eq_some_iff, Tag.asInt?_eq_some_iff]

theorem getCompound?_eq_some_iff {children : Compound} :
    c.getCompound? key = some children ↔ c.get? key = some (.compound children) := by
  simp [getCompound?, Option.bind_eq_some_iff, Tag.asCompound?_eq_some_iff]

/-- A child of another kind is no compound. -/
theorem getCompound?_eq_none {child : Tag} (h : c.get? key = some child)
    (hkind : child.kind ≠ .compound) : c.getCompound? key = none := by
  rw [Option.eq_none_iff_forall_ne_some]
  intro children hchildren
  obtain rfl := Option.some.inj (h.symm.trans (getCompound?_eq_some_iff.1 hchildren))
  exact hkind rfl

theorem getStrings?_eq_some_iff {texts : List String} :
    c.getStrings? key = some texts ↔ c.get? key = some (.list (texts.map .string)) := by
  simp [getStrings?, getList?, Option.bind_eq_some_iff, Tag.asList?_eq_some_iff,
    Tag.mapM_eq_some_iff fun _ _ => Tag.asString?_eq_some_iff]

theorem getInts?_eq_some_iff {numbers : List Int32} :
    c.getInts? key = some numbers ↔ c.get? key = some (.list (numbers.map .int)) := by
  simp [getInts?, getList?, Option.bind_eq_some_iff, Tag.asList?_eq_some_iff,
    Tag.mapM_eq_some_iff fun _ _ => Tag.asInt?_eq_some_iff]

end Compound
end BlockData
