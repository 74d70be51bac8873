import BlockData.Proofs.Dict
import BlockData.Proofs.Json.Decoder
import BlockData.Proofs.Tag.Tree
import BlockData.Tag.Text

/-!
# Tag trees are read as they are written

A tag tree without fractions is found again in its text, in either layout, if its arrays and
objects nest no deeper than the reader admits, and is not read otherwise.

* `Tag.ofJson?_toJson` is the round trip of JSON values, `Tag.read?_print` that of texts;
* `tag_text_round_trip` puts tags and compounds at the top together;
* `Compound.isKeyed_of_read?` says that only trees with distinct keys are read.
-/

namespace BlockData

namespace Tag

/-! ## What is written -/

theorem hasTexts_numeralJson (numeral : Option Number.Numeral) :
    (numeralJson numeral).hasTexts := by
  cases numeral <;> rfl

theorem depth_numeralJson (numeral : Option Number.Numeral) :
    (numeralJson numeral).depth = 0 := by
  cases numeral <;> rfl

mutual

/-- All strings that are written for a tag have a text. -/
theorem hasTexts_toJson : ∀ tag : Tag, tag.toJson.hasTexts
  | .byte _ | .short _ | .int _ | .long _ | .string _ => rfl
  | .float x => by
    rw [toJson, Json.hasTexts_record_singleton]
    exact hasTexts_numeralJson _
  | .double x => by
    rw [toJson, Json.hasTexts_record_singleton]
    exact hasTexts_numeralJson _
  | .byteArray ns | .intArray ns | .longArray ns => by
    rw [toJson, Json.hasTexts_record_singleton, Json.hasTexts]
    exact Json.itemsHaveTexts_map_int _ ns
  | .list items => by
    rw [toJson, Json.hasTexts_record_singleton, Json.hasTexts]
    exact itemsHaveTexts_itemsJson items
  | .compound children => by
    rw [toJson, Json.hasTexts_record_singleton, Json.hasTexts]
    exact membersHaveTexts_childrenJson children

theorem itemsHaveTexts_itemsJson : ∀ items : List Tag, Json.itemsHaveTexts (itemsJson items)
  | [] => rfl
  | tag :: rest => by
    simp [itemsJson, Json.itemsHaveTexts, hasTexts_toJson tag, itemsHaveTexts_itemsJson rest]

theorem membersHaveTexts_childrenJson :
    ∀ children : List (String × Tag), Json.membersHaveTexts (childrenJson children)
  | [] => rfl
  | (key, tag) :: rest => by
    simp [childrenJson, Json.membersHaveTexts, hasTexts_toJson tag,
      membersHaveTexts_childrenJson rest]

end

mutual

/-- The value that is written for a tag is as deep as the tag. -/
theorem depth_toJson : ∀ tag : Tag, tag.toJson.depth = tag.depth
  | .byte _ | .short _ | .int _ | .long _ | .string _ => rfl
  | .float x => by rw [toJson, Json.depth_record_singleton, depth_numeralJson, depth]
  | .double x => by rw [toJson, Json.depth_record_singleton, depth_numeralJson, depth]
  | .byteArray ns | .intArray ns | .longArray ns => by
    rw [toJson, Json.depth_record_singleton, Json.depth, Json.itemsDepth_map_int, depth]
  | .list items => by
    rw [toJson, Json.depth_record_singleton, Json.depth, itemsDepth_itemsJson items, depth]
  | .compound children => by
    rw [toJson, Json.depth_record_singleton, Json.depth, membersDepth_childrenJson children, depth]

theorem itemsDepth_itemsJson :
    ∀ items : List Tag, Json.itemsDepth (itemsJson items) = itemsDepth items
  | [] => rfl
  | tag :: rest => by
    rw [itemsJson, Json.itemsDepth, itemsDepth, depth_toJson tag, itemsDepth_itemsJson rest]

theorem membersDepth_childrenJson :
    ∀ children : List (String × Tag),
      Json.membersDepth (childrenJson children) = childrenDepth children
  | [] => rfl
  | (key, tag) :: rest => by
    rw [childrenJson, Json.membersDepth, childrenDepth, depth_toJson tag,
      membersDepth_childrenJson rest]

end

/-! ## Reading it again -/

mutual

/-- A tag is found again in the value that is written for it. -/
theorem ofJson?_toJson : ∀ tag : Tag, tag.isExact → tag.isKeyed → ofJson? tag.toJson = some tag
  | .byte n, _, _ => congrArg (Option.map Tag.byte) (Json.asInt8?_int n)
  | .short n, _, _ => congrArg (Option.map Tag.short) (Json.asInt16?_int n)
  | .int n, _, _ => congrArg (Option.map Tag.int) (Json.asInt32?_int n)
  | .long n, _, _ => congrArg (Option.map Tag.long) (Json.asInt64?_int n)
  | .string s, _, _ => rfl
  | .byteArray ns, _, _ =>
    congrArg (Option.map Tag.byteArray) (Json.asList?_map Json.asInt8?_int ns)
  | .intArray ns, _, _ =>
    congrArg (Option.map Tag.intArray) (Json.asList?_map Json.asInt32?_int ns)
  | .longArray ns, _, _ =>
    congrArg (Option.map Tag.longArray) (Json.asList?_map Json.asInt64?_int ns)
  | .list items, hexact, hkeyed => by
    rw [isExact] at hexact
    rw [isKeyed] at hkeyed
    exact congrArg (Option.map Tag.list) (itemsOfJson?_itemsJson items hexact hkeyed)
  | .compound children, hexact, hkeyed => by
    rw [isExact] at hexact
    -- with distinct keys the members are taken over as they stand
    obtain ⟨hdistinct, hkeyed⟩ : Entries.Distinct children ∧ childrenKeyed children := by
      simpa [isKeyed] using hkeyed
    have hchildren := childrenOfJson?_childrenJson children hexact hkeyed
    calc ofJson? (Tag.compound children).toJson
        = (childrenOfJson? (childrenJson children)).map
            fun children => .compound (Entries.ofList children) := rfl
      _ = some (.compound children) := by
          rw [hchildren, Option.map_some, Entries.ofList_of_distinct hdistinct]

theorem itemsOfJson?_itemsJson :
    ∀ items : List Tag, itemsExact items → itemsKeyed items →
      itemsOfJson? (itemsJson items) = some items
  | [], _, _ => rfl
  | tag :: rest, hexact, hkeyed => by
    obtain ⟨htag, hrest⟩ : tag.isExact ∧ itemsExact rest := by simpa [itemsExact] using hexact
    obtain ⟨htag', hrest'⟩ : tag.isKeyed ∧ itemsKeyed rest := by simpa [itemsKeyed] using hkeyed
    simp only [itemsJson, itemsOfJson?, ofJson?_toJson tag htag htag',
      itemsOfJson?_itemsJson rest hrest hrest']

theorem childrenOfJson?_childrenJson :
    ∀ children : List (String × Tag), childrenExact children → childrenKeyed children →
      childrenOfJson? (childrenJson children) = some children
  | [], _, _ => rfl
  | (key, tag) :: rest, hexact, hkeyed => by
    obtain ⟨htag, hrest⟩ : tag.isExact ∧ childrenExact rest := by
      simpa [childrenExact] using hexact
    obtain ⟨htag', hrest'⟩ : tag.isKeyed ∧ childrenKeyed rest := by
      simpa [childrenKeyed] using hkeyed
    simp only [childrenJson, childrenOfJson?, ofJson?_toJson tag htag htag',
      childrenOfJson?_childrenJson rest hrest hrest']

end

/-! ## What is read -/

/-- Children that are read, the last one under each key, have distinct keys. -/
theorem keyed_ofList {children : List (String × Tag)} (h : childrenKeyed children) :
    (Entries.ofList children).Distinct ∧ childrenKeyed (Entries.ofList children) := by
  refine ⟨Entries.distinct_ofList children, (childrenKeyed_iff _).2 ?_⟩
  intro child hchild
  exact (childrenKeyed_iff _).1 h child (Entries.mem_of_mem_ofList hchild)

mutual

/-- A tag that is read has distinct keys in every compound. -/
theorem isKeyed_of_ofJson? : ∀ (value : Json) {tag : Tag}, ofJson? value = some tag → tag.isKeyed
  | .object [(some kind, content)], tag, h => by
    unfold ofJson? at h
    split at h
    case h_11 items _ =>
      rcases Option.map_eq_some_iff.1 h with ⟨tags, htags, rfl⟩
      rw [isKeyed]
      exact itemsKeyed_of_itemsOfJson? items htags
    case h_12 members _ =>
      rcases Option.map_eq_some_iff.1 h with ⟨children, hchildren, rfl⟩
      -- of children that come twice the last one is left
      have hkeyed := keyed_ofList (childrenKeyed_of_childrenOfJson? members hchildren)
      simpa [isKeyed] using hkeyed
    case h_13 => simp at h
    all_goals
      rcases Option.map_eq_some_iff.1 h with ⟨_, -, rfl⟩
      rfl
  | .object [], tag, h | .object ((none, _) :: _), tag, h | .object ((some _, _) :: _ :: _), tag, h
  | .null, tag, h | .bool _, tag, h | .number _, tag, h | .string _, tag, h
  | .array _, tag, h => by
    have hnone : none = some tag := h
    simp at hnone

theorem itemsKeyed_of_itemsOfJson? :
    ∀ (items : List Json) {tags : List Tag}, itemsOfJson? items = some tags → itemsKeyed tags
  | [], tags, h => by
    obtain rfl := Option.some.inj h
    rfl
  | value :: rest, tags, h => by
    unfold itemsOfJson? at h
    split at h
    · next tag others htag hothers =>
      obtain rfl := Option.some.inj h
      simp [itemsKeyed, isKeyed_of_ofJson? value htag, itemsKeyed_of_itemsOfJson? rest hothers]
    · simp at h

theorem childrenKeyed_of_childrenOfJson? :
    ∀ (members : List (Quotation × Json)) {children : List (String × Tag)},
      childrenOfJson? members = some children → childrenKeyed children
  | [], children, h => by
    obtain rfl := Option.some.inj h
    rfl
  | (name, value) :: rest, children, h => by
    unfold childrenOfJson? at h
    split at h
    · next tag others htag hothers =>
      obtain rfl := Option.some.inj h
      simp [childrenKeyed, isKeyed_of_ofJson? value htag,
        childrenKeyed_of_childrenOfJson? rest hothers]
    · simp at h

end

/-! ## Texts -/

/-- The text of a tag is read as the tag, if it does not nest too deeply. -/
theorem read?_print (layout : Json.Layout) {tag : Tag} (hexact : tag.isExact)
    (hkeyed : tag.isKeyed) :
    read? (tag.toJson.print layout) = if tag.depth ≤ nestingLimit then some tag else none := by
  rw [read?, Json.parseWithin?_print _ _ (hasTexts_toJson tag), depth_toJson]
  split
  · exact ofJson?_toJson tag hexact hkeyed
  · rfl

end Tag

/-! ## Compounds at the top -/

namespace Compound

theorem hasTexts_toJson (c : Compound) : c.toJson.hasTexts := by
  rw [toJson, Json.hasTexts]
  exact Tag.membersHaveTexts_childrenJson c

theorem depth_toJson (c : Compound) : c.toJson.depth = c.depth := by
  rw [toJson, Json.depth, Tag.membersDepth_childrenJson, depth]

/-- A compound is found again in the object that is written for it. -/
theorem ofJson?_toJson {c : Compound} (hexact : c.isExact) (hkeyed : c.isKeyed) :
    ofJson? c.toJson = some c := by
  obtain ⟨hdistinct, hchildren⟩ : c.Distinct ∧ Tag.childrenKeyed c := by
    simpa [isKeyed] using hkeyed
  rw [toJson, ofJson?, Tag.childrenOfJson?_childrenJson c hexact hchildren, Option.map_some,
    Entries.ofList_of_distinct hdistinct]

/-- The text of a compound, with white space behind it, is read as the compound, if it does not
nest too deeply. -/
theorem read?_render (layout : Json.Layout) {c : Compound} (hexact : c.isExact)
    (hkeyed : c.isKeyed) {ending : List Char} (hending : ∀ x ∈ ending, Json.isSpace x) :
    read? (String.ofList (Json.render layout 0 c.toJson ++ ending)) =
      if c.depth ≤ Tag.nestingLimit then some c else none := by
  rw [read?, Json.parseWithin?_render _ _ (hasTexts_toJson c) hending, depth_toJson]
  split
  · exact ofJson?_toJson hexact hkeyed
  · rfl

theorem read?_print (layout : Json.Layout) {c : Compound} (hexact : c.isExact)
    (hkeyed : c.isKeyed) :
    read? (c.toJson.print layout) = if c.depth ≤ Tag.nestingLimit then some c else none := by
  have hread := @read?_render layout c hexact hkeyed [] (by simp)
  rwa [List.append_nil] at hread

/-- A compound is read from the members of an object, of which the last one under each key
counts. -/
theorem read?_eq_some {text : String} {c : Compound} (h : read? text = some c) :
    ∃ members children, Json.parseWithin? Tag.nestingLimit text = some (.object members) ∧
      Tag.childrenOfJson? members = some children ∧ c = Entries.ofList children := by
  rcases Option.bind_eq_some_iff.1 h with ⟨value, hparse, hvalue⟩
  unfold ofJson? at hvalue
  split at hvalue
  · next members =>
    rcases Option.map_eq_some_iff.1 hvalue with ⟨children, hchildren, rfl⟩
    exact ⟨members, children, hparse, hchildren, rfl⟩
  · simp at hvalue

/-- A compound that is read has distinct keys, as all compounds below it have. -/
theorem isKeyed_of_read? {text : String} {c : Compound} (h : read? text = some c) :
    c.isKeyed := by
  obtain ⟨members, children, -, hchildren, rfl⟩ := read?_eq_some h
  have hkeyed := Tag.childrenKeyed_of_childrenOfJson? members hchildren
  simpa [isKeyed] using Tag.keyed_ofList hkeyed

end Compound

/-! ## The round trip -/

/-- A tag or a compound at the top, with any texts and keys and any integers, is found again in
its text, whether this is compact or indented, if the text nests at most 127 arrays and objects;
a text that nests deeper is not read. -/
theorem tag_text_round_trip (layout : Json.Layout) :
    (∀ tag : Tag, tag.isExact → tag.isKeyed →
      Json.textNesting? (tag.toJson.print layout) = some tag.depth ∧
      Tag.read? (tag.toJson.print layout) = if tag.depth ≤ 127 then some tag else none) ∧
    (∀ c : Compound, c.isExact → c.isKeyed →
      Json.textNesting? (c.toJson.print layout) = some c.depth ∧
      Compound.read? (c.toJson.print layout) = if c.depth ≤ 127 then some c else none) := by
  constructor
  · intro tag hexact hkeyed
    refine ⟨?_, Tag.read?_print layout hexact hkeyed⟩
    rw [Json.textNesting?_print layout (Tag.hasTexts_toJson tag), Tag.depth_toJson]
  · intro c hexact hkeyed
    refine ⟨?_, Compound.read?_print layout hexact hkeyed⟩
    rw [Json.textNesting?_print layout (Compound.hasTexts_toJson c), Compound.depth_toJson]

/-- Sixty-three lists around a byte are read again, but not around one more list; and a compound
with escapes in its keys and texts is read again. -/
theorem tag_text_round_trip_at_limit :
    let lists (tag : Tag) : Tag := Nat.repeat (fun inner => .list [inner]) 63 tag
    let c : Compound := [("q\"\\\n\x01", .long (-9223372036854775808)), ("𝄞", .string "\x7f/é")]
    Tag.read? ((lists (.byte 0)).toJson.print .indented) = some (lists (.byte 0)) ∧
    Tag.read? ((lists (.list [])).toJson.print .compact) = none ∧
    Compound.read? (c.toJson.print .indented) = some c := by
  intro lists c
  have hcompact := tag_text_round_trip .compact
  have hindented := tag_text_round_trip .indented
  have hread := (hindented.1 (lists (.byte 0)) (by decide +kernel) (by decide +kernel)).2
  have hrejected := (hcompact.1 (lists (.list [])) (by decide +kernel) (by decide +kernel)).2
  have hescapes := (hindented.2 c (by decide) (by decide)).2
  have hwithin : (lists (.byte 0)).depth ≤ 127 := by decide +kernel
  have hbeyond : ¬ (lists (.list [])).depth ≤ 127 := by decide +kernel
  rw [if_pos hwithin] at hread
  rw [if_neg hbeyond] at hrejected
  exact ⟨hread, hrejected, hescapes⟩

end BlockData
