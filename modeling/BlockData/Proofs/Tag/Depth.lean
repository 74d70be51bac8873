import BlockData.Proofs.Json.Machine
import BlockData.Proofs.Tag.Text

/-!
# What is read can be written and read again

A tag nests no deeper than the value that it is read from, so that a compound that a reader
admits is still admitted in its own text.  `Compound.Kept` collects what a compound needs to
be found again there; a child that is shallow enough may be inserted, and any child erased.
-/

namespace BlockData

namespace Tag

/-! ## Depth of what is read -/

/-- Children that are read, the last one under each key, are among those that were written. -/
theorem childrenDepth_ofList_le (children : List (String × Tag)) :
    childrenDepth (Entries.ofList children) ≤ childrenDepth children := by
  refine (childrenDepth_le_iff _ _).2 fun child hchild => ?_
  exact (childrenDepth_le_iff _ _).1 (Nat.le_refl _) child (Entries.mem_of_mem_ofList hchild)

/-- A list is read from an array. -/
theorem one_le_depth_of_asList? {α : Type} {item? : Json → Option α} {value : Json}
    {items : List α} (h : value.asList? item? = some items) : 1 ≤ value.depth := by
  cases value with
  | array values => exact Nat.le_add_left 1 _
  | _ => simp [Json.asList?] at h

/-- The object of a tag is one deeper than its content. -/
theorem depth_tagObject (kind : String) (content : Json) :
    (Json.object [(some kind, content)]).depth = content.depth + 1 := by
  simp [Json.depth, Json.membersDepth]

mutual

/-- A tag nests no deeper than the value it is read from. -/
theorem depth_le_of_ofJson? :
    ∀ (value : Json) {tag : Tag}, ofJson? value = some tag → tag.depth ≤ value.depth
  | .object [(some kind, content)], tag, h => by
    rw [depth_tagObject]
    unfold ofJson? at h
    split at h
    -- arrays of numbers have no depth of their own
    case h_8 | h_9 | h_10 =>
      rcases Option.map_eq_some_iff.1 h with ⟨numbers, hnumbers, rfl⟩
      exact Nat.succ_le_succ (one_le_depth_of_asList? hnumbers)
    case h_11 items _ =>
      rcases Option.map_eq_some_iff.1 h with ⟨tags, htags, rfl⟩
      have hitems := itemsDepth_le_of_itemsOfJson? items htags
      simp only [depth, Json.depth]
      omega
    case h_12 members _ =>
      rcases Option.map_eq_some_iff.1 h with ⟨children, hchildren, rfl⟩
      have hmembers := childrenDepth_le_of_childrenOfJson? members hchildren
      -- children that come twice are left out, which makes nothing deeper
      have hlast := childrenDepth_ofList_le children
      simp only [depth, Json.depth]
      omega
    case h_13 => simp at h
    all_goals
      rcases Option.map_eq_some_iff.1 h with ⟨_, -, rfl⟩
      exact Nat.le_add_left 1 _
  | .object [], tag, h | .object ((none, _) :: _), tag, h | .object ((some _, _) :: _ :: _), tag, h
  | .null, tag, h | .bool _, tag, h | .number _, tag, h | .string _, tag, h
  | .array _, tag, h => by
    have hnone : none = some tag := h
    simp at hnone

theorem itemsDepth_le_of_itemsOfJson? :
    ∀ (items : List Json) {tags : List Tag}, itemsOfJson? items = some tags →
      itemsDepth tags ≤ Json.itemsDepth items
  | [], tags, h => by
    obtain rfl := Option.some.inj h
    exact Nat.le_refl 0
  | value :: rest, tags, h => by
    unfold itemsOfJson? at h
    split at h
    · next tag others htag hothers =>
      obtain rfl := Option.some.inj h
      have hfirst := depth_le_of_ofJson? value htag
      have hrest := itemsDepth_le_of_itemsOfJson? rest hothers
      simp only [itemsDepth, Json.itemsDepth]
      omega
    · simp at h

theorem childrenDepth_le_of_childrenOfJson? :
    ∀ (members : List (Quotation × Json)) {children : List (String × Tag)},
      childrenOfJson? members = some children →
        childrenDepth children ≤ Json.membersDepth members
  | [], children, h => by
    obtain rfl := Option.some.inj h
    exact Nat.le_refl 0
  | (name, value) :: rest, children, h => by
    unfold childrenOfJson? at h
    split at h
    · next tag others htag hothers =>
      obtain rfl := Option.some.inj h
      have hfirst := depth_le_of_ofJson? value htag
      have hrest := childrenDepth_le_of_childrenOfJson? rest hothers
      simp only [childrenDepth, Json.membersDepth]
      omega
    · simp at h

end

end Tag

namespace Compound

/-- A compound that is read is within the limit. -/
theorem depth_le_of_read? {text : String} {c : Compound} (h : read? text = some c) :
    c.depth ≤ Tag.nestingLimit := by
  obtain ⟨members, children, hparse, hchildren, rfl⟩ := read?_eq_some h
  have hwithin := Json.depth_le_of_parseWithin? hparse
  have hmembers := Tag.childrenDepth_le_of_childrenOfJson? members hchildren
  have hlast := Tag.childrenDepth_ofList_le children
  rw [Json.depth] at hwithin
  rw [depth]
  omega

end Compound

/-! ## Compounds that are kept -/

/-- A tag that may stand in a compound whose text is to be read again. -/
structure Tag.Kept (tag : Tag) : Prop where
  exact : tag.isExact
  keyed : tag.isKeyed
  shallow : tag.depth < nestingLimit

namespace Compound

/-- A compound that is found again in its text. -/
structure Kept (c : Compound) : Prop where
  distinct : c.Distinct
  children : ∀ child ∈ c, child.2.Kept

theorem kept_iff {c : Compound} :
    c.Kept ↔ c.isExact ∧ c.isKeyed ∧ c.depth ≤ Tag.nestingLimit := by
  have hdepth : c.depth ≤ Tag.nestingLimit ↔ ∀ child ∈ c, child.2.depth < Tag.nestingLimit := by
    rw [depth, Nat.add_one_le_iff]
    simp only [Nat.lt_iff_le_pred (by decide : 0 < Tag.nestingLimit)]
    exact Tag.childrenDepth_le_iff c (Tag.nestingLimit - 1)
  have hexact := Tag.childrenExact_iff c
  have hkeyed := @isKeyed_iff c
  constructor
  · rintro ⟨hdistinct, hchildren⟩
    exact ⟨hexact.2 fun child h => (hchildren child h).exact,
      hkeyed.2 ⟨hdistinct, fun child h => (hchildren child h).keyed⟩,
      hdepth.2 fun child h => (hchildren child h).shallow⟩
  · rintro ⟨hexact', hkeyed', hdepth'⟩
    exact ⟨(hkeyed.1 hkeyed').1, fun child h =>
      ⟨hexact.1 hexact' child h, (hkeyed.1 hkeyed').2 child h, hdepth.1 hdepth' child h⟩⟩

/-- A compound that is read from a text without fractions is kept. -/
theorem kept_of_read? {text : String} {c : Compound} (h : read? text = some c)
    (hexact : c.isExact) : c.Kept :=
  kept_iff.2 ⟨hexact, isKeyed_of_read? h, depth_le_of_read? h⟩

/-- A kept compound is read from its text, whatever white space stands behind it. -/
theorem Kept.read?_render {c : Compound} (h : c.Kept) (layout : Json.Layout)
    {ending : List Char} (hending : ∀ x ∈ ending, Json.isSpace x) :
    read? (String.ofList (Json.render layout 0 c.toJson ++ ending)) = some c := by
  obtain ⟨hexact, hkeyed, hdepth⟩ := kept_iff.1 h
  rw [Compound.read?_render layout hexact hkeyed hending, if_pos hdepth]

theorem Kept.insert {c : Compound} (h : c.Kept) (key : String) {tag : Tag} (htag : tag.Kept) :
    Compound.Kept (Entries.insert key tag c) where
  distinct := Entries.distinct_insert key tag h.distinct
  children := by
    intro child hchild
    rcases Entries.mem_of_mem_insert hchild with rfl | hbefore
    · exact htag
    · exact h.children child hbefore

theorem Kept.erase {c : Compound} (h : c.Kept) (key : String) :
    Compound.Kept (Entries.erase key c) where
  distinct := Entries.distinct_erase key h.distinct
  children := fun child hchild => h.children child (Entries.mem_of_mem_erase hchild)

end Compound

/-- A tag without others in it is kept. -/
theorem Tag.kept_of_depth_eq_one {tag : Tag} (hexact : tag.isExact) (hkeyed : tag.isKeyed)
    (hdepth : tag.depth = 1) : tag.Kept :=
  ⟨hexact, hkeyed, by rw [hdepth]; decide⟩

theorem Tag.kept_int (value : Int32) : (Tag.int value).Kept :=
  kept_of_depth_eq_one rfl rfl rfl

theorem Tag.kept_string (text : String) : (Tag.string text).Kept :=
  kept_of_depth_eq_one rfl rfl rfl

end BlockData
