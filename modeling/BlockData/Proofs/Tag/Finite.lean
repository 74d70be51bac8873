import BlockData.Proofs.Number.Shortest
import BlockData.Proofs.Tag.Depth

/-!
# Trees whose numbers are finite

A tree is read from its own text exactly if all its numbers are finite and it does not nest too
deeply.  Reading gives finite numbers of 64 bits, for it stops beyond the largest one; numbers
of 32 bits are rounded from them, and may become infinite.

* `Tag.everyNumber` says that something holds of all numbers in a tree;
* `Tag.isSome_ofJson?_toJson` is about what is written, `Tag.everyNumber_of_ofJson?` about what
  is read;
* `Compound.isSome_read?_render_of_read?` puts them together for texts.
-/

namespace BlockData

open Number

namespace Tag

section EveryNumber

variable (single : Float32 → Bool) (double : Float → Bool)

mutual

/-- Whether something holds of every number of 32 bits in a tree, and something of every number
of 64 bits. -/
def everyNumber : Tag → Bool
  | .float x => single x
  | .double x => double x
  | .byte _ | .short _ | .int _ | .long _ | .string _ => true
  | .byteArray _ | .intArray _ | .longArray _ => true
  | .list items => itemsEvery items
  | .compound children => childrenEvery children

@[inherit_doc everyNumber]
def itemsEvery : List Tag → Bool
  | [] => true
  | tag :: rest => everyNumber tag && itemsEvery rest

@[inherit_doc everyNumber]
def childrenEvery : List (String × Tag) → Bool
  | [] => true
  | (_, tag) :: rest => everyNumber tag && childrenEvery rest

end

theorem childrenEvery_iff (children : List (String × Tag)) :
    childrenEvery single double children ↔
      ∀ child ∈ children, child.2.everyNumber single double := by
  induction children with
  | nil => simp [childrenEvery]
  | cons child rest ih => simp [childrenEvery, ih]

variable {single double} in
/-- What holds of all children that are written holds of the last one under each key. -/
theorem childrenEvery_ofList {children : List (String × Tag)}
    (h : childrenEvery single double children) :
    childrenEvery single double (Entries.ofList children) := by
  refine (childrenEvery_iff _ _ _).2 fun child hchild => ?_
  exact (childrenEvery_iff _ _ _).1 h child (Entries.mem_of_mem_ofList hchild)

variable (single' : Float32 → Bool) (double' : Float → Bool)

mutual

/-- Two things hold of every number if each of them does. -/
theorem everyNumber_and : ∀ tag : Tag,
    tag.everyNumber (fun x => single x && single' x) (fun x => double x && double' x) =
      (tag.everyNumber single double && tag.everyNumber single' double')
  | .float _ | .double _ => rfl
  | .byte _ | .short _ | .int _ | .long _ | .string _ => rfl
  | .byteArray _ | .intArray _ | .longArray _ => rfl
  | .list items => by simp only [everyNumber, itemsEvery_and items]
  | .compound children => by simp only [everyNumber, childrenEvery_and children]

theorem itemsEvery_and : ∀ items : List Tag,
    itemsEvery (fun x => single x && single' x) (fun x => double x && double' x) items =
      (itemsEvery single double items && itemsEvery single' double' items)
  | [] => rfl
  | tag :: rest => by
    simp only [itemsEvery, everyNumber_and tag, itemsEvery_and rest]
    ac_rfl

theorem childrenEvery_and : ∀ children : List (String × Tag),
    childrenEvery (fun x => single x && single' x) (fun x => double x && double' x) children =
      (childrenEvery single double children && childrenEvery single' double' children)
  | [] => rfl
  | (_, tag) :: rest => by
    simp only [childrenEvery, everyNumber_and tag, childrenEvery_and rest]
    ac_rfl

end

end EveryNumber

/-! ## What is written -/

/-- A number of 32 bits is read from what is written for it, if it is finite. -/
theorem isSome_toSingle?_numeralJson (x : Float32) :
    ((numeral? (numeralJson (singleNumeral? x))).bind Numeral.toSingle?).isSome = x.isFinite := by
  have hfinite := isSome_singleNumeral? x
  cases hnumeral : singleNumeral? x with
  | none =>
    rw [hnumeral] at hfinite
    simpa [numeralJson, numeral?] using hfinite
  | some n =>
    rw [hnumeral] at hfinite
    exact (isSome_toSingle?_of_singleNumeral? hnumeral).trans (hfinite.1 rfl).symm

theorem isSome_toDouble?_numeralJson (x : Float) :
    ((numeral? (numeralJson (doubleNumeral? x))).bind Numeral.toDouble?).isSome = x.isFinite := by
  have hfinite := isSome_doubleNumeral? x
  cases hnumeral : doubleNumeral? x with
  | none =>
    rw [hnumeral] at hfinite
    simpa [numeralJson, numeral?] using hfinite
  | some n =>
    rw [hnumeral] at hfinite
    exact (isSome_toDouble?_of_doubleNumeral? hnumeral).trans (hfinite.1 rfl).symm

mutual

/-- A tag is read from the value that is written for it exactly if all its numbers are finite. -/
theorem isSome_ofJson?_toJson : ∀ tag : Tag,
    (ofJson? tag.toJson).isSome = tag.everyNumber Float32.isFinite Float.isFinite
  | .float x => (Option.isSome_map ..).trans (isSome_toSingle?_numeralJson x)
  | .double x => (Option.isSome_map ..).trans (isSome_toDouble?_numeralJson x)
  | .byte _ | .short _ | .int _ | .long _ | .string _
  | .byteArray _ | .intArray _ | .longArray _ => by
    rw [ofJson?_toJson _ rfl rfl]
    rfl
  | .list items => (Option.isSome_map ..).trans (isSome_itemsOfJson?_itemsJson items)
  | .compound children =>
    (Option.isSome_map ..).trans (isSome_childrenOfJson?_childrenJson children)

theorem isSome_itemsOfJson?_itemsJson : ∀ items : List Tag,
    (itemsOfJson? (itemsJson items)).isSome = itemsEvery Float32.isFinite Float.isFinite items
  | [] => rfl
  | tag :: rest => by
    rw [itemsEvery, ← isSome_ofJson?_toJson tag, ← isSome_itemsOfJson?_itemsJson rest]
    cases htag : ofJson? tag.toJson <;> cases hrest : itemsOfJson? (itemsJson rest) <;>
      simp [itemsJson, itemsOfJson?, htag, hrest]

theorem isSome_childrenOfJson?_childrenJson : ∀ children : List (String × Tag),
    (childrenOfJson? (childrenJson children)).isSome =
      childrenEvery Float32.isFinite Float.isFinite children
  | [] => rfl
  | (key, tag) :: rest => by
    rw [childrenEvery, ← isSome_ofJson?_toJson tag, ← isSome_childrenOfJson?_childrenJson rest]
    cases htag : ofJson? tag.toJson <;> cases hrest : childrenOfJson? (childrenJson rest) <;>
      simp [childrenJson, childrenOfJson?, htag, hrest]

end

/-! ## What is read -/

mutual

/-- The numbers of 64 bits that are read are finite, and those of 32 bits are numbers, or
infinite. -/
theorem everyNumber_of_ofJson? : ∀ (value : Json) {tag : Tag}, ofJson? value = some tag →
    tag.everyNumber (!·.isNaN) Float.isFinite
  | .object [(some kind, content)], tag, h => by
    unfold ofJson? at h
    split at h
    -- a float is narrowed, and so may become infinite, but it stays a number
    case h_5 =>
      rcases Option.map_eq_some_iff.1 h with ⟨x, hx, rfl⟩
      rcases Option.bind_eq_some_iff.1 hx with ⟨n, -, hn⟩
      have hnan := not_isNaN_of_toSingle? hn
      rw [everyNumber, Bool.eq_false_iff.2 hnan]
      rfl
    -- a double is read as it is
    case h_6 =>
      rcases Option.map_eq_some_iff.1 h with ⟨x, hx, rfl⟩
      rcases Option.bind_eq_some_iff.1 hx with ⟨n, -, hn⟩
      exact isFinite_of_toDouble? hn
    case h_11 items _ =>
      rcases Option.map_eq_some_iff.1 h with ⟨tags, htags, rfl⟩
      exact itemsEvery_of_itemsOfJson? items htags
    case h_12 members _ =>
      rcases Option.map_eq_some_iff.1 h with ⟨children, hchildren, rfl⟩
      exact childrenEvery_ofList (childrenEvery_of_childrenOfJson? members hchildren)
    case h_13 => simp at h
    -- the other kinds hold no such number
    all_goals
      rcases Option.map_eq_some_iff.1 h with ⟨_, -, rfl⟩
      rfl
  | .object [], tag, h | .object ((none, _) :: _), tag, h | .object ((some _, _) :: _ :: _), tag, h
  | .null, tag, h | .bool _, tag, h | .number _, tag, h | .string _, tag, h
  | .array _, tag, h => by
    have hnone : none = some tag := h
    simp at hnone

theorem itemsEvery_of_itemsOfJson? :
    ∀ (items : List Json) {tags : List Tag}, itemsOfJson? items = some tags →
      itemsEvery (!·.isNaN) Float.isFinite tags
  | [], tags, h => by
    obtain rfl := Option.some.inj h
    rfl
  | value :: rest, tags, h => by
    unfold itemsOfJson? at h
    split at h
    · next tag others htag hothers =>
      obtain rfl := Option.some.inj h
      rw [itemsEvery, everyNumber_of_ofJson? value htag, Bool.true_and]
      exact itemsEvery_of_itemsOfJson? rest hothers
    · simp at h

theorem childrenEvery_of_childrenOfJson? :
    ∀ (members : List (Quotation × Json)) {children : List (String × Tag)},
      childrenOfJson? members = some children →
        childrenEvery (!·.isNaN) Float.isFinite children
  | [], children, h => by
    obtain rfl := Option.some.inj h
    rfl
  | (name, value) :: rest, children, h => by
    unfold childrenOfJson? at h
    split at h
    · next tag others htag hothers =>
      obtain rfl := Option.some.inj h
      rw [childrenEvery, everyNumber_of_ofJson? value htag, Bool.true_and]
      exact childrenEvery_of_childrenOfJson? rest hothers
    · simp at h

end

end Tag

/-! ## Compounds -/

namespace Compound

/-- Whether a number of 32 bits in a compound is infinite. -/
def hasInfinity (c : Compound) : Bool :=
  !Tag.childrenEvery (!·.isInf) (fun _ => true) c

theorem isSome_ofJson?_toJson (c : Compound) :
    (ofJson? c.toJson).isSome = Tag.childrenEvery Float32.isFinite Float.isFinite c :=
  (Option.isSome_map ..).trans (Tag.isSome_childrenOfJson?_childrenJson c)

/-- A compound is read from its text, with white space behind it, exactly if it does not nest too
deeply and its numbers are finite. -/
theorem isSome_read?_render (layout : Json.Layout) (c : Compound) {ending : List Char}
    (hending : ∀ x ∈ ending, Json.isSpace x) :
    (read? (String.ofList (Json.render layout 0 c.toJson ++ ending))).isSome =
      (decide (c.depth ≤ Tag.nestingLimit) &&
        Tag.childrenEvery Float32.isFinite Float.isFinite c) := by
  rw [read?, Json.parseWithin?_render _ _ (hasTexts_toJson c) hending, depth_toJson,
    ← isSome_ofJson?_toJson]
  by_cases hdepth : c.depth ≤ Tag.nestingLimit
  · simp [hdepth]
  · simp [hdepth]

theorem childrenEvery_of_read? {text : String} {c : Compound} (h : read? text = some c) :
    Tag.childrenEvery (!·.isNaN) Float.isFinite c := by
  obtain ⟨members, children, -, hchildren, rfl⟩ := read?_eq_some h
  exact Tag.childrenEvery_ofList (Tag.childrenEvery_of_childrenOfJson? members hchildren)

/-- The numbers of a compound that is read are finite, unless one of 32 bits is infinite. -/
theorem childrenEvery_isFinite_of_read? {text : String} {c : Compound} (h : read? text = some c) :
    Tag.childrenEvery Float32.isFinite Float.isFinite c = !c.hasInfinity := by
  have hread := childrenEvery_of_read? h
  have hsingle : Float32.isFinite = fun x => !x.isNaN && !x.isInf := funext isFinite_single
  have hdouble : Float.isFinite = fun x => x.isFinite && true := funext fun x =>
    (Bool.and_true _).symm
  have hboth := Tag.childrenEvery_and (!·.isNaN) Float.isFinite (!·.isInf) (fun _ => true) c
  rw [← hsingle, ← hdouble, hread, Bool.true_and] at hboth
  rw [hboth, hasInfinity, Bool.not_not]

/-- A compound that is read is read again from its own text, with white space behind it, exactly
if no number of 32 bits in it is infinite. -/
theorem isSome_read?_render_of_read? {text : String} {c : Compound} (h : read? text = some c)
    (layout : Json.Layout) {ending : List Char} (hending : ∀ x ∈ ending, Json.isSpace x) :
    (read? (String.ofList (Json.render layout 0 c.toJson ++ ending))).isSome = !c.hasInfinity := by
  rw [isSome_read?_render layout c hending, childrenEvery_isFinite_of_read? h,
    decide_eq_true (depth_le_of_read? h), Bool.true_and]

end Compound
end BlockData
