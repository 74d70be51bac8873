import BlockData.Proofs.Dict

/-!
# Dictionaries in another order

Two dictionaries with the same entries in a different order give the same value under every
key, and only such dictionaries do (`Dict.reordered_iff`).  Writing and erasing act on the
values under keys, so that they keep two dictionaries reordered.
-/

namespace BlockData

/-- Related options are both empty, or hold related values. -/
theorem rel_cases {α β : Type} {r : α → β → Prop} {x : Option α} {y : Option β}
    (h : Option.Rel r x y) :
    (x = none ∧ y = none) ∨ ∃ a b, x = some a ∧ y = some b ∧ r a b := by
  cases h with
  | none => exact Or.inl ⟨rfl, rfl⟩
  | @some a b hab => exact Or.inr ⟨a, b, rfl, rfl, hab⟩

namespace Entries

variable {α β : Type}

theorem Distinct.nodup {entries : Entries α} (distinct : Distinct entries) : entries.Nodup :=
  List.Pairwise.of_map Prod.fst (fun _ _ hkeys heq => hkeys (congrArg Prod.fst heq)) distinct

/-- Where no key stands twice, the entries are the values that are found. -/
theorem mem_iff_get? {entries : Entries α} (distinct : Distinct entries) (pair : String × α) :
    pair ∈ entries ↔ get? entries pair.1 = some pair.2 := by
  constructor
  · intro h
    exact get?_of_mem distinct h
  · intro h
    exact mem_of_get? h

/-- Entries with distinct keys are reordered exactly if every key has the same value. -/
theorem perm_iff_get? {entries others : Entries α} (distinct : Distinct entries)
    (distinct' : Distinct others) :
    entries.Perm others ↔ ∀ key, get? entries key = get? others key := by
  rw [List.perm_ext_iff_of_nodup distinct.nodup distinct'.nodup]
  constructor
  · intro h key
    refine Option.ext fun value => ?_
    have hmem := h (key, value)
    rwa [mem_iff_get? distinct, mem_iff_get? distinct'] at hmem
  · intro h pair
    rw [mem_iff_get? distinct, mem_iff_get? distinct', h]

/-- Entries that are left out, or changed, are so under their keys. -/
theorem get?_filterMap (f : α → Option β) {entries : Entries α} (distinct : Distinct entries)
    (key : String) :
    get? (entries.filterMap fun (key, value) => (f value).map (key, ·)) key =
      (get? entries key).bind f := by
  have distinct' := distinct_filterMap f distinct
  refine Option.ext fun value => ?_
  have hmem := mem_iff_get? distinct' (key, value)
  rw [← hmem, List.mem_filterMap, Option.bind_eq_some_iff]
  constructor
  · rintro ⟨⟨name, source⟩, hsource, heq⟩
    obtain ⟨image, himage, hpair⟩ := Option.map_eq_some_iff.1 heq
    obtain ⟨rfl, rfl⟩ := Prod.mk.inj hpair
    exact ⟨source, get?_of_mem distinct hsource, himage⟩
  · rintro ⟨source, hsource, himage⟩
    exact ⟨(key, source), mem_of_get? hsource, by simp [himage]⟩

end Entries

namespace Dict

variable {α β : Type}

/-- The same entries, in whatever order. -/
def Reordered (d e : Dict α) : Prop :=
  d.entries.Perm e.entries

theorem reordered_iff {d e : Dict α} : d.Reordered e ↔ ∀ key, d.get? key = e.get? key :=
  Entries.perm_iff_get? d.distinct e.distinct

theorem Reordered.refl (d : Dict α) : d.Reordered d :=
  List.Perm.refl d.entries

theorem Reordered.get?_eq {d e : Dict α} (h : d.Reordered e) (key : String) :
    d.get? key = e.get? key :=
  reordered_iff.1 h key

theorem Reordered.insert {d e : Dict α} (h : d.Reordered e) (key : String) (value : α) :
    (d.insert key value).Reordered (e.insert key value) := by
  rw [reordered_iff]
  intro other
  rw [get?_insert, get?_insert, h.get?_eq]

theorem Reordered.erase {d e : Dict α} (h : d.Reordered e) (key : String) :
    (d.erase key).Reordered (e.erase key) := by
  rw [reordered_iff]
  intro other
  rw [get?_erase, get?_erase, h.get?_eq]

theorem Reordered.insertAll {d e : Dict α} (h : d.Reordered e) (pairs : List (String × α)) :
    (d.insertAll pairs).Reordered (e.insertAll pairs) := by
  rw [insertAll_eq_foldl, insertAll_eq_foldl]
  exact List.foldl_rel h fun pair _ _ _ hrel => hrel.insert pair.1 pair.2

theorem Reordered.map {d e : Dict α} (h : d.Reordered e) (f : α → β) :
    (d.map f).Reordered (e.map f) := by
  rw [reordered_iff]
  intro key
  rw [get?_map, get?_map, h.get?_eq]

end Dict
end BlockData
