import BlockData.Proofs.Tag.Equality
import Mathlib.Logic.Relation

/-!
# Equal tags are reorderings of each other

Where no number has a fraction and no key stands twice, equality of tags is an equivalence that
leaves the order of children out of account, and nothing else: two trees are equal exactly if
one becomes the other by permuting the children of its compounds.

* `Context` is a tree with a hole, and `Context.Permuted` one permutation somewhere in a tree;
* `same_refl`, `same_trans` and `same_fill` are the laws of equality;
* `reorders_of_same` and `same_of_reorders` lead from equality to permutations and back.
-/

namespace BlockData.Tag

/-! ## Trees by their parts -/

/-- What holds of numbers, texts and arrays, and of a list or a compound if it holds of what is
in it, holds of every tag. -/
@[elab_as_elim]
theorem induct {motive : Tag → Prop}
    (leaf : ∀ tag : Tag, tag.kind ≠ .list → tag.kind ≠ .compound → motive tag)
    (list : ∀ items, (∀ item ∈ items, motive item) → motive (.list items))
    (compound : ∀ children : Compound, (∀ child ∈ children, motive child.2) →
      motive (.compound children)) : ∀ tag, motive tag
  | .list items => list items fun item _ => induct leaf list compound item
  | .compound children => compound children fun (_, tag) _ => induct leaf list compound tag
  | .byte _ | .short _ | .int _ | .long _ | .float _ | .double _ | .string _
  | .byteArray _ | .intArray _ | .longArray _ => leaf _ (by simp [kind]) (by simp [kind])
  termination_by tag => sizeOf tag
  decreasing_by
    all_goals
      have := List.sizeOf_lt_of_mem ‹_›
      simp only [Tag.list.sizeOf_spec, Tag.compound.sizeOf_spec, Prod.mk.sizeOf_spec] at *
      omega

/-- A tree that equality sees as it is: without numbers with a fraction, and with distinct keys
in every compound. -/
structure Plain (tag : Tag) : Prop where
  exact : tag.isExact
  keyed : tag.isKeyed

theorem plain_list_iff {items : List Tag} :
    (Tag.list items).Plain ↔ ∀ item ∈ items, item.Plain := by
  constructor
  · rintro ⟨he, hk⟩ item hitem
    exact ⟨(itemsExact_iff items).1 he item hitem, (itemsKeyed_iff items).1 hk item hitem⟩
  · intro h
    exact ⟨(itemsExact_iff items).2 fun item hitem => (h item hitem).exact,
      (itemsKeyed_iff items).2 fun item hitem => (h item hitem).keyed⟩

theorem plain_compound_iff {children : Compound} :
    (Tag.compound children).Plain ↔ children.Distinct ∧ ∀ child ∈ children, child.2.Plain := by
  have hkeyed : (Tag.compound children).isKeyed ↔
      children.Distinct ∧ ∀ child ∈ children, child.2.isKeyed := Compound.isKeyed_iff
  constructor
  · rintro ⟨he, hk⟩
    obtain ⟨hdistinct, hchildren⟩ := hkeyed.1 hk
    exact ⟨hdistinct, fun child hchild =>
      ⟨(childrenExact_iff children).1 he child hchild, hchildren child hchild⟩⟩
  · rintro ⟨hdistinct, h⟩
    exact ⟨(childrenExact_iff children).2 fun child hchild => (h child hchild).exact,
      hkeyed.2 ⟨hdistinct, fun child hchild => (h child hchild).keyed⟩⟩

/-! ## Equality by parts -/

/-- Tags without parts are equal only to themselves. -/
theorem same_leaf_iff {a b : Tag} (ha : a.isExact) (hlist : a.kind ≠ .list)
    (hcompound : a.kind ≠ .compound) : a.same b ↔ a = b := by
  cases a <;> cases b <;> simp_all [same, kind, isExact]

/-- Lists are equal if their items are, one by one. -/
theorem same_list_iff {items others : List Tag} :
    same (.list items) (.list others) ↔ List.Forall₂ (fun a b => same a b) items others := by
  have hitems : sameItems items others ↔ List.Forall₂ (fun a b => same a b) items others := by
    induction items generalizing others with
    | nil => cases others <;> simp [sameItems]
    | cons item items ih => cases others <;> simp [sameItems, ih]
  rw [same, hitems]

/-- Only a list is equal to a list. -/
theorem exists_list_of_same {items : List Tag} {b : Tag} (h : same (.list items) b) :
    ∃ others, b = .list others := by
  cases b <;> first | exact ⟨_, rfl⟩ | simp [same] at h

/-- Only a compound is equal to a compound. -/
theorem exists_compound_of_same {children : Compound} {b : Tag}
    (h : same (.compound children) b) : ∃ others, b = .compound others := by
  cases b <;> first | exact ⟨_, rfl⟩ | simp [same] at h

/-- Compounds are equal if they have as many children, and each child of the first one has its
match in the second one. -/
theorem same_compound_iff_matches {children others : Compound} :
    same (.compound children) (.compound others) ↔ children.length = others.length ∧
      ∀ child ∈ children, ∃ tag, others.get? child.1 = some tag ∧ same child.2 tag := by
  rw [same, Bool.and_eq_true, beq_iff_eq, sameChildren_iff]

theorem same_refl {a : Tag} (ha : a.Plain) : a.same a := by
  induction a using induct with
  | leaf tag hlist hcompound => exact (same_leaf_iff ha.exact hlist hcompound).2 rfl
  | list items ih =>
    rw [same_list_iff, List.forall₂_same]
    intro item hitem
    exact ih item hitem (plain_list_iff.1 ha item hitem)
  | compound children ih =>
    obtain ⟨hdistinct, hchildren⟩ := plain_compound_iff.1 ha
    rw [same_compound_iff_matches]
    refine ⟨rfl, fun child hchild => ⟨child.2, Entries.get?_of_mem hdistinct hchild, ?_⟩⟩
    exact ih child hchild (hchildren child hchild)

theorem same_trans {a b c : Tag} (ha : a.Plain) (hab : a.same b) (hbc : b.same c) :
    a.same c := by
  induction a using induct generalizing b c with
  | leaf tag hlist hcompound =>
    obtain rfl := (same_leaf_iff ha.exact hlist hcompound).1 hab
    exact hbc
  | list items ih =>
    obtain ⟨seconds, rfl⟩ := exists_list_of_same hab
    obtain ⟨thirds, rfl⟩ := exists_list_of_same hbc
    rw [same_list_iff, List.forall₂_iff_get] at *
    refine ⟨hab.1.trans hbc.1, fun i hi hk => ?_⟩
    have hmem : items.get ⟨i, hi⟩ ∈ items := List.get_mem items ⟨i, hi⟩
    have hsecond : i < seconds.length := hab.1 ▸ hi
    exact ih _ hmem (plain_list_iff.1 ha _ hmem) (hab.2 i hi hsecond) (hbc.2 i hsecond hk)
  | compound children ih =>
    obtain ⟨seconds, rfl⟩ := exists_compound_of_same hab
    obtain ⟨thirds, rfl⟩ := exists_compound_of_same hbc
    rw [same_compound_iff_matches] at *
    refine ⟨hab.1.trans hbc.1, fun child hchild => ?_⟩
    have hplain := (plain_compound_iff.1 ha).2 child hchild
    -- each child has its counterpart under the same key, twice
    obtain ⟨second, hsecond, hfirst⟩ := hab.2 child hchild
    obtain ⟨third, hthird, hnext⟩ := hbc.2 _ (Entries.mem_of_get? hsecond)
    exact ⟨third, hthird, ih child hchild hplain hfirst hnext⟩

/-! ## Trees with a hole -/

/-- A tree with a hole in the place of one of its tags. -/
inductive Context where
  | hole
  /-- The hole is in an item of a list. -/
  | item (before : List Tag) (inner : Context) (after : List Tag)
  /-- The hole is in the child under a key. -/
  | child (before : Compound) (key : String) (inner : Context) (after : Compound)

namespace Context

/-- Put a tag into the hole. -/
def fill : Context → Tag → Tag
  | hole, tag => tag
  | item before inner after, tag => .list (before ++ inner.fill tag :: after)
  | child before key inner after, tag => .compound (before ++ (key, inner.fill tag) :: after)

/-- Put another context into the hole. -/
def comp : Context → Context → Context
  | hole, context => context
  | item before inner after, context => item before (inner.comp context) after
  | child before key inner after, context => child before key (inner.comp context) after

theorem fill_comp (outer inner : Context) (tag : Tag) :
    (outer.comp inner).fill tag = outer.fill (inner.fill tag) := by
  induction outer with
  | hole => rfl
  | item before outer after ih => rw [comp, fill, fill, ih]
  | child before key outer after ih => rw [comp, fill, fill, ih]

end Context

/-- A tree stays plain if a plain tag takes the place of another one. -/
theorem Plain.fill {context : Context} {a b : Tag} (ha : (context.fill a).Plain)
    (hb : b.Plain) : (context.fill b).Plain := by
  induction context with
  | hole => exact hb
  | item before inner after ih =>
    rw [Context.fill, plain_list_iff, List.forall_mem_append, List.forall_mem_cons] at *
    exact ⟨ha.1, ih ha.2.1, ha.2.2⟩
  | child before key inner after ih =>
    rw [Context.fill, plain_compound_iff, List.forall_mem_append, List.forall_mem_cons] at *
    refine ⟨?_, ha.2.1, ih ha.2.2.1, ha.2.2.2⟩
    simpa [Entries.Distinct, Entries.keys] using ha.1

/-- What is in the hole of a plain tree is plain. -/
theorem Plain.of_fill {context : Context} {a : Tag} (ha : (context.fill a).Plain) :
    a.Plain := by
  induction context with
  | hole => exact ha
  | item before inner after ih =>
    exact ih (plain_list_iff.1 ha _ (by simp))
  | child before key inner after ih =>
    exact ih ((plain_compound_iff.1 ha).2 (key, inner.fill a) (by simp))

/-- Equal tags in one place of a tree make equal trees. -/
theorem same_fill {context : Context} {a b : Tag} (ha : (context.fill a).Plain)
    (hab : a.same b) : (context.fill a).same (context.fill b) := by
  induction context with
  | hole => exact hab
  | item before inner after ih =>
    have hitems := plain_list_iff.1 ha
    rw [List.forall_mem_append, List.forall_mem_cons] at hitems
    obtain ⟨hbefore, hinner, hafter⟩ := hitems
    rw [Context.fill, Context.fill, same_list_iff]
    refine List.rel_append ?_ (.cons (ih hinner) ?_)
    · exact List.forall₂_same.2 fun item hitem => same_refl (hbefore item hitem)
    · exact List.forall₂_same.2 fun item hitem => same_refl (hafter item hitem)
  | child before key inner after ih =>
    obtain ⟨hdistinct, hchildren⟩ := plain_compound_iff.1 ha
    rw [List.forall_mem_append, List.forall_mem_cons] at hchildren
    obtain ⟨hbefore, hinner, hafter⟩ := hchildren
    -- the keys are those of the first tree, so that each child is found under its own
    have hdistinct' : Entries.Distinct (before ++ (key, inner.fill b) :: after) := by
      simpa [Entries.Distinct, Entries.keys] using hdistinct
    have hfound {name : String} {tag : Tag}
        (h : (name, tag) ∈ before ++ (key, inner.fill b) :: after) :
        Entries.get? (before ++ (key, inner.fill b) :: after) name = some tag :=
      Entries.get?_of_mem hdistinct' h
    rw [Context.fill, Context.fill, same_compound_iff_matches, List.forall_mem_append,
      List.forall_mem_cons]
    refine ⟨by simp, ?_, ⟨_, hfound (by simp), ih hinner⟩, ?_⟩
    · intro child hchild
      exact ⟨child.2, hfound (by simp [hchild]), same_refl (hbefore child hchild)⟩
    · intro child hchild
      exact ⟨child.2, hfound (by simp [hchild]), same_refl (hafter child hchild)⟩

/-! ## Permutations -/

/-- Somewhere in a tree the children of one compound are permuted. -/
def Permuted (s t : Tag) : Prop :=
  ∃ (context : Context) (children others : Compound), children.Perm others ∧
    s = context.fill (.compound children) ∧ t = context.fill (.compound others)

/-- One tree becomes the other by permuting the children of its compounds, one after the
other. -/
abbrev Reorders : Tag → Tag → Prop :=
  Relation.ReflTransGen Permuted

theorem permuted_symm {s t : Tag} (h : Permuted s t) : Permuted t s := by
  obtain ⟨context, children, others, hperm, hs, ht⟩ := h
  exact ⟨context, others, children, hperm.symm, ht, hs⟩

theorem reorders_symm {s t : Tag} (h : Reorders s t) : Reorders t s := by
  induction h with
  | refl => exact .refl
  | tail _ hstep ih => exact .head (permuted_symm hstep) ih

/-- What is reordered inside a tree reorders the tree. -/
theorem reorders_fill (context : Context) {s t : Tag} (h : Reorders s t) :
    Reorders (context.fill s) (context.fill t) := by
  refine h.lift context.fill ?_
  rintro _ _ ⟨inner, children, others, hperm, rfl, rfl⟩
  exact ⟨context.comp inner, children, others, hperm, (context.fill_comp inner _).symm,
    (context.fill_comp inner _).symm⟩

/-- A permutation of children makes an equal tree. -/
theorem same_of_perm {children others : Compound} (h : (Tag.compound children).Plain)
    (hperm : children.Perm others) :
    (Tag.compound others).Plain ∧ same (.compound children) (.compound others) := by
  obtain ⟨hdistinct, hchildren⟩ := plain_compound_iff.1 h
  have hkeys : (Entries.keys children).Perm (Entries.keys others) := hperm.map Prod.fst
  have hdistinct' : others.Distinct := hkeys.nodup hdistinct
  refine ⟨plain_compound_iff.2 ⟨hdistinct', fun child hchild => ?_⟩, ?_⟩
  · exact hchildren child (hperm.mem_iff.2 hchild)
  · refine same_compound_iff_matches.2 ⟨hperm.length_eq, fun child hchild => ?_⟩
    exact ⟨child.2, Entries.get?_of_mem hdistinct' (hperm.mem_iff.1 hchild),
      same_refl (hchildren child hchild)⟩

/-- One permutation keeps a tree plain, and equal to what it was. -/
theorem same_of_permuted {s t : Tag} (hs : s.Plain) (h : Permuted s t) : t.Plain ∧ s.same t := by
  obtain ⟨context, children, others, hperm, rfl, rfl⟩ := h
  obtain ⟨hplain, hsame⟩ := same_of_perm hs.of_fill hperm
  exact ⟨hs.fill hplain, same_fill hs hsame⟩

/-- So do permutations one after the other. -/
theorem same_of_reorders {s t : Tag} (hs : s.Plain) (h : Reorders s t) : t.Plain ∧ s.same t := by
  induction h with
  | refl => exact ⟨hs, same_refl hs⟩
  | tail _ hstep ih =>
    obtain ⟨hplain, hsame⟩ := ih
    obtain ⟨hplain', hsame'⟩ := same_of_permuted hplain hstep
    exact ⟨hplain', same_trans hs hsame hsame'⟩

/-! ## From equality to permutations -/

/-- A list is reordered item by item. -/
theorem reorders_list {items others : List Tag} (h : List.Forall₂ Reorders items others)
    (before : List Tag) : Reorders (.list (before ++ items)) (.list (before ++ others)) := by
  induction h generalizing before with
  | nil => exact .refl
  | @cons item other items others hitem _ ih =>
    have hfirst : Reorders (.list (before ++ item :: items)) (.list (before ++ other :: items)) :=
      reorders_fill (.item before .hole items) hitem
    have hrest := ih (before ++ [other])
    rw [List.append_assoc, List.append_assoc] at hrest
    exact hfirst.trans hrest

/-- A compound is reordered child by child, under the same keys in the same order. -/
theorem reorders_compound {children others : Compound}
    (h : List.Forall₂ (fun a b => a.1 = b.1 ∧ Reorders a.2 b.2) children others)
    (before : Compound) :
    Reorders (.compound (before ++ children)) (.compound (before ++ others)) := by
  induction h generalizing before with
  | nil => exact .refl
  | @cons child other children others hchild _ ih =>
    obtain ⟨key, tag⟩ := child
    obtain ⟨_, tag'⟩ := other
    obtain ⟨rfl, htag⟩ := hchild
    have hfirst : Reorders (.compound (before ++ (key, tag) :: children))
        (.compound (before ++ (key, tag') :: children)) :=
      reorders_fill (.child before key .hole children) htag
    have hrest := ih (before ++ [(key, tag')])
    rw [List.append_assoc, List.append_assoc] at hrest
    exact hfirst.trans hrest

/-- Matches can be put in the order of the children that they match. -/
theorem exists_matching {children others : Compound}
    (h : ∀ child ∈ children, ∃ tag, others.get? child.1 = some tag ∧ same child.2 tag) :
    ∃ matching : Compound, (∀ child ∈ matching, child ∈ others) ∧
      List.Forall₂ (fun a b => a.1 = b.1 ∧ same a.2 b.2) children matching := by
  induction children with
  | nil => exact ⟨[], by simp, .nil⟩
  | cons child rest ih =>
    obtain ⟨⟨tag, hfound, hsame⟩, hrest⟩ := List.forall_mem_cons.1 h
    obtain ⟨matching, hmem, hrel⟩ := ih hrest
    refine ⟨(child.1, tag) :: matching, ?_, .cons ⟨rfl, hsame⟩ hrel⟩
    exact List.forall_mem_cons.2 ⟨Entries.mem_of_get? hfound, hmem⟩

/-- The children of an equal compound can be permuted to stand opposite their matches. -/
theorem exists_perm_of_same {children others : Compound} (hdistinct : children.Distinct)
    (h : same (.compound children) (.compound others)) :
    ∃ matching : Compound, matching.Perm others ∧
      List.Forall₂ (fun a b => a.1 = b.1 ∧ same a.2 b.2) children matching := by
  obtain ⟨hlength, hmatches⟩ := same_compound_iff_matches.1 h
  obtain ⟨matching, hmem, hrel⟩ := exists_matching hmatches
  refine ⟨matching, ?_, hrel⟩
  -- as many children, with the keys of the first compound: they are all that there are
  have hkeys : Entries.keys children = Entries.keys matching := by
    rw [← List.forall₂_eq_eq_eq, Entries.keys, Entries.keys, List.forall₂_map_left_iff,
      List.forall₂_map_right_iff]
    exact hrel.imp fun _ _ hpair => hpair.1
  have hmatching : matching.Distinct := by rwa [Entries.Distinct, ← hkeys]
  refine (List.subperm_of_subset hmatching.nodup hmem).perm_of_length_le ?_
  exact Nat.le_of_eq (hlength.symm.trans hrel.length_eq)

/-- Equal trees are reorderings of each other. -/
theorem reorders_of_same {s t : Tag} (hs : s.Plain) (ht : t.Plain) (h : s.same t) :
    Reorders s t := by
  induction s using induct generalizing t with
  | leaf tag hlist hcompound =>
    obtain rfl := (same_leaf_iff hs.exact hlist hcompound).1 h
    exact .refl
  | list items ih =>
    obtain ⟨others, rfl⟩ := exists_list_of_same h
    obtain ⟨hlength, hitems⟩ := List.forall₂_iff_zip.1 (same_list_iff.1 h)
    refine reorders_list (List.forall₂_iff_zip.2 ⟨hlength, fun {a b} hpair => ?_⟩) []
    obtain ⟨ha, hb⟩ := List.of_mem_zip hpair
    exact ih a ha (plain_list_iff.1 hs a ha) (plain_list_iff.1 ht b hb) (hitems hpair)
  | compound children ih =>
    obtain ⟨others, rfl⟩ := exists_compound_of_same h
    obtain ⟨hdistinct, hchildren⟩ := plain_compound_iff.1 hs
    obtain ⟨-, hothers⟩ := plain_compound_iff.1 ht
    obtain ⟨matching, hperm, hrel⟩ := exists_perm_of_same hdistinct h
    -- first the children are changed where they stand, and then they are moved
    have hfirst : Reorders (.compound children) (.compound matching) := by
      obtain ⟨hlength, hpairs⟩ := List.forall₂_iff_zip.1 hrel
      refine reorders_compound (List.forall₂_iff_zip.2 ⟨hlength, fun {a b} hpair => ?_⟩) []
      obtain ⟨ha, hb⟩ := List.of_mem_zip hpair
      obtain ⟨hkey, hsame⟩ := hpairs hpair
      exact ⟨hkey, ih a ha (hchildren a ha) (hothers b (hperm.mem_iff.1 hb)) hsame⟩
    exact hfirst.tail ⟨.hole, matching, others, hperm, rfl, rfl⟩

theorem same_iff_reorders {s t : Tag} (hs : s.Plain) (ht : t.Plain) : s.same t ↔ Reorders s t :=
  ⟨reorders_of_same hs ht, fun h => (same_of_reorders hs h).2⟩

/-- Equality is an equivalence on trees without numbers with a fraction; it holds between two
of them exactly if one becomes the other by permuting the children of compounds, at any depth;
and a tree stays equal to itself if an equal tag takes the place of any tag in it. -/
theorem equality_forgets_order :
    Equivalence (fun s t : {tag : Tag // tag.Plain} => s.1.same t.1) ∧
    (∀ s t : Tag, s.Plain → t.Plain → (s.same t ↔ Reorders s t)) ∧
    ∀ (context : Context) (a b : Tag), (context.fill a).Plain → a.same b →
      (context.fill a).same (context.fill b) := by
  refine ⟨⟨?_, ?_, ?_⟩, ?_, ?_⟩
  · exact fun s => same_refl s.2
  · intro s t hsame
    rw [same_iff_reorders s.2 t.2] at hsame
    exact (same_iff_reorders t.2 s.2).2 (reorders_symm hsame)
  · exact fun {s _ _} hst htu => same_trans s.2 hst htu
  · exact fun s t hs ht => same_iff_reorders hs ht
  · exact fun context a b ha hsame => same_fill ha hsame

/-- A chest with three logs in it. -/
def chest : Tag :=
  .compound [("id", .string "x:chest"),
    ("items", .list [.compound [("name", .string "x:log"), ("count", .byte 3)], .int 7])]

/-- The chest with the children of both compounds in another order. -/
def turnedChest : Tag :=
  .compound [("items", .list [.compound [("count", .byte 3), ("name", .string "x:log")], .int 7]),
    ("id", .string "x:chest")]

/-- A list with a chest in it. -/
def room : Context :=
  .item [.string "door"] (.child [("lit", .byte 1)] "chest" .hole []) []

/-- The two chests are equal, and so are the lists with them. -/
theorem equality_of_chests_forgets_order :
    chest.Plain ∧ turnedChest.Plain ∧ Reorders chest turnedChest ∧
      turnedChest.same chest ∧ (room.fill chest).same (room.fill turnedChest) := by
  have hchest : chest.Plain := ⟨by decide +kernel, by decide +kernel⟩
  have hturned : turnedChest.Plain := ⟨by decide +kernel, by decide +kernel⟩
  have hroom : (room.fill chest).Plain := ⟨by decide +kernel, by decide +kernel⟩
  have hsame : chest.same turnedChest := by decide +kernel
  obtain ⟨hequivalence, hreorders, hcongruence⟩ := equality_forgets_order
  refine ⟨hchest, hturned, (hreorders _ _ hchest hturned).1 hsame, ?_, ?_⟩
  · exact @Equivalence.symm _ _ hequivalence ⟨chest, hchest⟩ ⟨turnedChest, hturned⟩ hsame
  · exact hcongruence room chest turnedChest hroom hsame

end BlockData.Tag
