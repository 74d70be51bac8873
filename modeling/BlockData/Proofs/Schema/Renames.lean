import BlockData.Proofs.Dict
import BlockData.Schema.Action
import Mathlib.Data.List.Nodup

/-!
# Renamed properties

Renames take place one after the other, so that one of them may take up what another has left
behind, or write over a property that is there.  Where a name ends up depends on the renames
alone (`renamedTo`), and the properties afterwards are those from before, each under the name
that its own has become.

* `Dict.MovedBy` says so of two dictionaries: no key is lost and no value is invented;
* `movedBy_rename` is about one rename, `movedBy_foldl_rename` about a list of them;
* `renames_lose_and_invent_nothing` is about the step of a schema.
-/

namespace BlockData

namespace Dict

variable {α : Type} {f g : String → String} {d e : Dict α}

/-- The second dictionary has the values of the first one, under the keys that `f` makes of
theirs.  Where keys meet, it has one of their values. -/
structure MovedBy (f : String → String) (d e : Dict α) : Prop where
  /-- No key is lost. -/
  kept : ∀ key ∈ d.keys, f key ∈ e.keys
  /-- No value is invented. -/
  found : ∀ key value, e.get? key = some value →
    ∃ source, f source = key ∧ d.get? source = some value

namespace MovedBy

theorem refl (d : Dict α) : MovedBy id d d where
  kept _ hkey := hkey
  found key _ hfound := ⟨key, rfl, hfound⟩

/-- What is moved twice is moved by both functions in turn. -/
theorem trans {c : Dict α} (h : MovedBy f c d) (h' : MovedBy g d e) :
    MovedBy (g ∘ f) c e where
  kept key hkey := h'.kept (f key) (h.kept key hkey)
  found key value hfound := by
    rcases h'.found key value hfound with ⟨middle, rfl, hmiddle⟩
    rcases h.found middle value hmiddle with ⟨source, rfl, hsource⟩
    exact ⟨source, rfl, hsource⟩

/-- Every value is one that was there, under a key that has become its own. -/
theorem exists_source (h : MovedBy f d e) {key : String} (hkey : key ∈ e.keys) :
    ∃ source ∈ d.keys, f source = key ∧ e.get? key = d.get? source := by
  rcases mem_keys_iff.1 hkey with ⟨value, hvalue⟩
  rcases h.found key value hvalue with ⟨source, hsource, hfound⟩
  exact ⟨source, mem_keys_iff.2 ⟨value, hfound⟩, hsource, hvalue.trans hfound.symm⟩

/-- The keys are those that `f` makes of the keys from before. -/
theorem mem_keys_iff_exists (h : MovedBy f d e) (key : String) :
    key ∈ e.keys ↔ ∃ source ∈ d.keys, f source = key := by
  constructor
  · intro hkey
    rcases h.exists_source hkey with ⟨source, hmem, hsource, -⟩
    exact ⟨source, hmem, hsource⟩
  · rintro ⟨source, hmem, rfl⟩
    exact h.kept source hmem

/-- Where no two keys meet, each value is found under what its key has become. -/
theorem get?_eq (h : MovedBy f d e)
    (hinj : ∀ a ∈ d.keys, ∀ b ∈ d.keys, f a = f b → a = b) {key : String} (hkey : key ∈ d.keys) :
    e.get? (f key) = d.get? key := by
  rcases h.exists_source (h.kept key hkey) with ⟨source, hmem, hsource, hget⟩
  rw [hget, hinj source hmem key hkey hsource]

/-- Where no two keys meet, there are as many entries as before. -/
theorem size_eq (h : MovedBy f d e)
    (hinj : ∀ a ∈ d.keys, ∀ b ∈ d.keys, f a = f b → a = b) : e.size = d.size := by
  have hkeys : e.keys.Perm (d.keys.map f) := by
    refine (List.perm_ext_iff_of_nodup e.distinct (d.distinct.map_on hinj)).2 fun key => ?_
    exact (h.mem_keys_iff_exists key).trans List.mem_map.symm
  simpa [keys, Entries.keys, size] using hkeys.length_eq

end MovedBy
end Dict

/-! ## Renames one after the other -/

/-- The name that a name ends up with when renames are run in order. -/
def renamedTo (renames : List (String × String)) (name : String) : String :=
  renames.foldl (fun name (old, new) => if name = old then new else name) name

namespace Properties

/-- One rename moves the property of the old name. -/
theorem movedBy_rename (properties : Properties) (old new : String) :
    properties.MovedBy (renamedTo [(old, new)]) (properties.rename old new) := by
  have htarget : ∀ name, renamedTo [(old, new)] name = if name = old then new else name :=
    fun _ => rfl
  cases hold : properties.get? old with
  | none =>
    -- there is nothing to rename, and no name that would become another one
    have hsame : properties.rename old new = properties := by simp only [rename, hold]
    have hne : ∀ name ∈ properties.keys, name ≠ old := by
      rintro name hname rfl
      simp [Dict.mem_keys_iff, hold] at hname
    rw [hsame]
    constructor
    · intro key hkey
      rwa [htarget, if_neg (hne key hkey)]
    · intro key value hfound
      exact ⟨key, if_neg (hne key (Dict.mem_keys_iff.2 ⟨value, hfound⟩)), hfound⟩
  | some moved =>
    have hmoved : properties.rename old new = (properties.erase old).insert new moved := by
      simp only [rename, hold]
    rw [hmoved]
    constructor
    · intro key hkey
      rw [htarget]
      by_cases hkeyold : key = old
      · rw [if_pos hkeyold]
        exact Entries.mem_keys_insert_self
      · rw [if_neg hkeyold]
        have herased : (properties.erase old).keys = properties.keys.erase old :=
          Entries.keys_erase old properties.entries
        have hkept : key ∈ (properties.erase old).keys :=
          herased ▸ (List.mem_erase_of_ne hkeyold).2 hkey
        exact Entries.mem_keys_insert_of_mem hkept
    · intro key value hfound
      rw [Dict.get?_insert, Dict.get?_erase] at hfound
      split at hfound
      · next hnew =>
        exact ⟨old, (if_pos rfl).trans hnew, hold.trans hfound⟩
      · split at hfound
        · simp at hfound
        · next hne => exact ⟨key, if_neg (Ne.symm hne), hfound⟩

/-- Renames one after the other move every property to where its name ends up. -/
theorem movedBy_foldl_rename (properties : Properties) (renames : List (String × String)) :
    properties.MovedBy (renamedTo renames)
      (renames.foldl (fun acc (old, new) => rename acc old new) properties) := by
  induction renames generalizing properties with
  | nil => exact .refl properties
  | cons pair rest ih =>
    -- the first rename moves the properties, and the others what it has left
    exact (properties.movedBy_rename pair.1 pair.2).trans (ih _)

end Properties

/-- The step that renames properties changes the properties of a block, and nothing else.  There
are then the names that the names from before end up with, and under each of them stands the value
of a name that ends up there.  Where no two names end up in one, every value is found under the
name that its own ends up with, and there are as many properties as before. -/
theorem renames_lose_and_invent_nothing (identifier : String) (renames : Dict String)
    (properties : Properties) (pending : Option String) :
    let target := renamedTo renames.entries
    ∃ renamed : Properties,
      (Action.renameProperties identifier renames).apply ⟨identifier, some properties, pending⟩ =
        (⟨identifier, some renamed, pending⟩, .proceed) ∧
      (∀ key, key ∈ renamed.keys ↔ ∃ name ∈ properties.keys, target name = key) ∧
      (∀ key ∈ renamed.keys, ∃ name ∈ properties.keys,
        target name = key ∧ renamed.get? key = properties.get? name) ∧
      ((∀ a ∈ properties.keys, ∀ b ∈ properties.keys, target a = target b → a = b) →
        (∀ name ∈ properties.keys, renamed.get? (target name) = properties.get? name) ∧
        renamed.size = properties.size) := by
  intro target
  -- what one rename after the other makes of the properties
  have hmoved : properties.MovedBy target (properties.renameAll renames) :=
    properties.movedBy_foldl_rename renames.entries
  refine ⟨properties.renameAll renames, ?_, hmoved.mem_keys_iff_exists,
    fun _ hkey => hmoved.exists_source hkey, ?_⟩
  · simp [Action.apply, BlockState.changeProperties]
  · intro hinj
    exact ⟨fun _ hname => hmoved.get?_eq hinj hname, hmoved.size_eq hinj⟩

/-- Two properties are exchanged by way of a third name, and another one is renamed to itself. -/
theorem renames_exchange_properties :
    let properties : Properties := .ofList [("a", .int 1), ("c", .byte 3), ("b", .int 2)]
    let renames : Dict String :=
      .ofList [("a", "t"), ("b", "a"), ("t", "b"), ("c", "c"), ("d", "e")]
    (∀ a ∈ properties.keys, ∀ b ∈ properties.keys,
      renamedTo renames.entries a = renamedTo renames.entries b → a = b) ∧
    ∃ renamed : Properties,
      (Action.renameProperties "x:log" renames).apply ⟨"x:log", some properties, none⟩ =
        (⟨"x:log", some renamed, none⟩, .proceed) ∧
      renamed.get? "a" = some (.int 2) ∧ renamed.get? "b" = some (.int 1) ∧
      renamed.get? "c" = some (.byte 3) ∧ renamed.size = 3 := by
  intro properties renames
  -- all three names end in different places
  have hinj : ∀ a ∈ properties.keys, ∀ b ∈ properties.keys,
      renamedTo renames.entries a = renamedTo renames.entries b → a = b := by
    decide
  rcases renames_lose_and_invent_nothing "x:log" renames properties none with
    ⟨renamed, happly, -, -, hmoved⟩
  rcases hmoved hinj with ⟨hget, hsize⟩
  exact ⟨hinj, renamed, happly, hget "b" (by decide), hget "a" (by decide), hget "c" (by decide),
    hsize⟩

end BlockData
