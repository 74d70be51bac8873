import BlockData.Proofs.Dict.Reordered
import BlockData.Proofs.Schema.Steps
import Mathlib.Data.List.Basic
import Mathlib.Data.Set.Function
import Mathlib.Logic.Equiv.Basic
import Mathlib.Logic.Relation

/-!
# Lookup tables are known by their names alone

A schema holds the lookup tables themselves, so that their names, their order and tables that
nothing refers to leave no trace in it.

* `LookupEdit` is what may be done to the tables of a document;
* `compile_withLookups` says what of them counts: that each reference leads to the same table;
* `compile_lookupEdit` is about one edit, `tables_are_known_by_name` about any number of them.
-/

namespace BlockData

namespace Entries

variable {α : Type}

/-- Under a new name there is what was under the old one, if no other key gets this name. -/
theorem get?_map_key {f : String → String} {entries : Entries α} {key : String}
    (h : ∀ other ∈ keys entries, f other = f key → other = key) :
    get? (entries.map fun (name, value) => (f name, value)) (f key) = get? entries key := by
  induction entries with
  | nil => rfl
  | cons pair rest ih =>
    obtain ⟨name, value⟩ := pair
    rw [keys_cons, List.forall_mem_cons] at h
    have hname : f name = f key ↔ name = key := ⟨h.1, congrArg f⟩
    simp only [List.map_cons, get?, hname, ih h.2]

end Entries

theorem Dict.map_id {α : Type} (d : Dict α) : d.map id = d :=
  Dict.ext (by simp [Dict.map, Entries.mapValues])

namespace RuleDocument

variable {document edited : RuleDocument} {schema : Schema}

/-- Some property refers to a table by its name. -/
def RefersTo (document : RuleDocument) (name : String) : Prop :=
  ∃ pair ∈ document.remappedValues.entries, ∃ reference ∈ pair.2.entries, reference.2 = name

instance (document : RuleDocument) (name : String) : Decidable (document.RefersTo name) :=
  inferInstanceAs (Decidable (∃ pair ∈ document.remappedValues.entries,
    ∃ reference ∈ pair.2.entries, reference.2 = name))

/-- The document with other tables, whose references follow `f`. -/
def withLookups (document : RuleDocument) (lookups : Dict (List LookupRow))
    (f : String → String) : RuleDocument :=
  { document with
    lookups := lookups
    remappedValues := document.remappedValues.map fun references => references.map f }

/-- The literals of all rows have a kind. -/
def RowsKinded (rows : List LookupRow) : Prop :=
  ∀ row ∈ rows, row.old.value?.isSome ∧ row.new.value?.isSome

instance (rows : List LookupRow) : Decidable (RowsKinded rows) :=
  inferInstanceAs (Decidable (∀ row ∈ rows, row.old.value?.isSome ∧ row.new.value?.isSome))

/-- What may be done to the lookup tables of a document. -/
inductive LookupEdit : RuleDocument → RuleDocument → Prop where
  /-- Tables get other names, which differ, and so do the references to them. -/
  | rename {document : RuleDocument} {lookups : Dict (List LookupRow)} (f : String → String)
      (hf : Set.InjOn f {name | name ∈ document.lookups.keys})
      (hlookups : lookups.entries =
        document.lookups.entries.map fun (name, rows) => (f name, rows)) :
      LookupEdit document (document.withLookups lookups f)
  /-- Tables change their places. -/
  | reorder {document : RuleDocument} {lookups : Dict (List LookupRow)}
      (hlookups : document.lookups.Reordered lookups) :
      LookupEdit document { document with lookups := lookups }
  /-- A table comes in under a new name. -/
  | add {document : RuleDocument} {name : String} {rows : List LookupRow}
      (hname : name ∉ document.lookups.keys) (hrows : RowsKinded rows) :
      LookupEdit document { document with lookups := document.lookups.insert name rows }
  /-- A table that nothing refers to goes away. -/
  | drop {document : RuleDocument} {name : String} (hname : ¬ document.RefersTo name) :
      LookupEdit document { document with lookups := document.lookups.erase name }

/-! ## What counts of the tables -/

/-- A name that a sound document refers to is that of a table. -/
theorem Sound.mem_keys_of_refersTo (h : document.Sound) {name : String}
    (hname : document.RefersTo name) : name ∈ document.lookups.keys := by
  obtain ⟨pair, hpair, reference, hreference, rfl⟩ := hname
  have htable := h.references pair hpair reference hreference
  rw [table?, Option.isSome_map] at htable
  exact (Entries.isSome_get? _ _).1 htable

/-- References to tables that are found again are replaced by the same tables. -/
theorem tablesFor_withLookups {lookups : Dict (List LookupRow)} {f : String → String}
    {references : Dict String}
    (hfound : ∀ reference ∈ references.entries,
      lookups.get? (f reference.2) = document.lookups.get? reference.2) :
    (document.withLookups lookups f).tablesFor (references.map f) =
      document.tablesFor references := by
  apply Dict.ext
  have htable : ∀ reference ∈ references.entries,
      (document.withLookups lookups f).table? (f reference.2) = document.table? reference.2 :=
    fun reference hreference => congrArg (Option.map _) (hfound reference hreference)
  change (references.entries.map _).filterMap _ = references.entries.filterMap _
  rw [List.filterMap_map]
  refine List.filterMap_congr fun reference hreference => ?_
  simp only [Function.comp_apply, htable reference hreference]

/-- A document compiles to the same schema with other tables under other names, if each reference
leads to the table that it led to. -/
theorem compile_withLookups {lookups : Dict (List LookupRow)} {f : String → String}
    (h : document.compile = .ok schema)
    (hrows : ∀ pair ∈ lookups.entries, ∀ row ∈ pair.2, row.change?.isSome)
    (hfound : ∀ name, document.RefersTo name →
      lookups.get? (f name) = document.lookups.get? name) :
    (document.withLookups lookups f).compile = .ok schema := by
  obtain ⟨hsound, rfl⟩ := compile_eq_ok_iff.1 h
  have hfound' : ∀ pair ∈ document.remappedValues.entries, ∀ reference ∈ pair.2.entries,
      lookups.get? (f reference.2) = document.lookups.get? reference.2 :=
    fun pair hpair reference hreference =>
      hfound reference.2 ⟨pair, hpair, reference, hreference, rfl⟩
  refine compile_eq_ok_iff.2 ⟨⟨hrows, hsound.states, hsound.added, ?_⟩, ?_⟩
  · -- a reference by the new name leads to the same table
    intro changed hchanged reference hreference
    obtain ⟨pair, hpair, rfl⟩ := List.mem_map.1 hchanged
    obtain ⟨source, hsource, rfl⟩ := List.mem_map.1 hreference
    have htable := hsound.references pair hpair source hsource
    rw [table?, ← hfound' pair hpair source hsource] at htable
    exact htable
  · -- of the steps, only those that change values look at the tables
    have hsteps : (document.withLookups lookups f).remappedValues.entries.map (fun pair =>
          Action.remapValues (Text.lowercase pair.1)
            ((document.withLookups lookups f).tablesFor pair.2)) =
        document.remappedValues.entries.map fun pair =>
          Action.remapValues (Text.lowercase pair.1) (document.tablesFor pair.2) := by
      change List.map _ (document.remappedValues.entries.map _) = _
      rw [List.map_map]
      refine List.map_congr_left fun pair hpair => ?_
      simp only [Function.comp_apply, tablesFor_withLookups (hfound' pair hpair)]
    rw [steps, steps, propertySteps, propertySteps, hsteps]
    rfl

/-- The same where the references stay as they are. -/
theorem compile_of_lookups {lookups : Dict (List LookupRow)}
    (h : document.compile = .ok schema)
    (hrows : ∀ pair ∈ lookups.entries, ∀ row ∈ pair.2, row.change?.isSome)
    (hfound : ∀ name, document.RefersTo name →
      lookups.get? name = document.lookups.get? name) :
    { document with lookups := lookups }.compile = .ok schema := by
  have hsame : document.withLookups lookups id = { document with lookups := lookups } := by
    rw [withLookups, show (fun references : Dict String => references.map id) = id from
      funext Dict.map_id, Dict.map_id]
  rw [← hsame]
  exact compile_withLookups h hrows hfound

/-! ## Edits -/

theorem RowsKinded.isSome_change? {rows : List LookupRow} (h : RowsKinded rows) :
    ∀ row ∈ rows, row.change?.isSome := by
  intro row hrow
  obtain ⟨hold, hnew⟩ := h row hrow
  obtain ⟨old, hold⟩ := Option.isSome_iff_exists.1 hold
  obtain ⟨new, hnew⟩ := Option.isSome_iff_exists.1 hnew
  simp [LookupRow.change?, hold, hnew]

/-- An edit of the tables leaves the schema as it is. -/
theorem compile_lookupEdit (hedit : LookupEdit document edited)
    (h : document.compile = .ok schema) : edited.compile = .ok schema := by
  have hsound : document.Sound := (compile_eq_ok_iff.1 h).1
  cases hedit with
  | @rename lookups f hf hlookups =>
    refine compile_withLookups h ?_ fun name hname => ?_
    · intro pair hpair
      rw [hlookups] at hpair
      obtain ⟨source, hsource, rfl⟩ := List.mem_map.1 hpair
      exact hsound.lookups source hsource
    · -- no other table that is referred to gets this name
      rw [Dict.get?, hlookups]
      refine Entries.get?_map_key fun other hother heq => ?_
      exact hf hother (hsound.mem_keys_of_refersTo hname) heq
  | reorder hlookups =>
    refine compile_of_lookups h ?_ fun name _ => (hlookups.get?_eq name).symm
    exact fun pair hpair => hsound.lookups pair (hlookups.mem_iff.2 hpair)
  | @add name rows hname hrows =>
    refine compile_of_lookups h ?_ fun other hother => ?_
    · intro pair hpair
      obtain rfl | hpair := Entries.mem_of_mem_insert hpair
      · exact hrows.isSome_change?
      · exact hsound.lookups pair hpair
    · have hne : name ≠ other := fun heq => hname (heq ▸ hsound.mem_keys_of_refersTo hother)
      rw [Dict.get?_insert, if_neg hne]
  | @drop name hname =>
    refine compile_of_lookups h ?_ fun other hother => ?_
    · exact fun pair hpair => hsound.lookups pair (Entries.mem_of_mem_erase hpair)
    · have hne : name ≠ other := fun heq => hname (heq ▸ hother)
      rw [Dict.get?_erase, if_neg hne]

/-- Any number of edits of the tables leave the schema as it is. -/
theorem tables_are_known_by_name (h : document.compile = .ok schema)
    (hedits : Relation.ReflTransGen LookupEdit document edited) :
    edited.compile = .ok schema := by
  induction hedits with
  | refl => exact h
  | tail _ hedit ih => exact compile_lookupEdit hedit ih

end RuleDocument

/-- The table of the sides of a wall. -/
def wallRows : List LookupRow :=
  [⟨⟨some 0, none, none⟩, ⟨none, none, some "Low"⟩⟩]

/-- A document with one table that two blocks refer to, and one that none does. -/
def wallDocument : RuleDocument :=
  { RuleDocument.unchanged ⟨1, 20, 0, 0⟩ with
    lookups := .ofList [("sides", wallRows), ("spare", [])]
    remappedValues := .ofList [("x:wall", .ofList [("east", "sides"), ("west", "sides")]),
      ("x:Fence", .ofList [("up", "sides")])] }

/-- The tables exchange their names, the one without references gives way to another, and this
one comes first. -/
def rebuiltWallDocument : RuleDocument :=
  { RuleDocument.unchanged ⟨1, 20, 0, 0⟩ with
    lookups := .ofList [("more", [⟨⟨none, some 1, none⟩, ⟨none, some 0, none⟩⟩]),
      ("spare", wallRows)]
    remappedValues := .ofList [("x:wall", .ofList [("east", "spare"), ("west", "spare")]),
      ("x:Fence", .ofList [("up", "spare")])] }

/-- Both documents compile to the same schema, which holds the table itself. -/
theorem tables_of_walls_are_known_by_name :
    ∃ schema, wallDocument.compile = .ok schema ∧ rebuiltWallDocument.compile = .ok schema ∧
      schema.actions =
        [.remapValues "x:wall" (.ofList [("east", [⟨.int 0, .string "low"⟩]),
            ("west", [⟨.int 0, .string "low"⟩])]),
          .remapValues "x:fence" (.ofList [("up", [⟨.int 0, .string "low"⟩])]), .takeName] := by
  have hcompile : wallDocument.compile =
      .ok ⟨wallDocument.version, wallDocument.steps, none⟩ := rfl
  let swap : String → String := Equiv.swap "sides" "spare"
  let renamed := wallDocument.withLookups (.ofList [("spare", wallRows), ("sides", [])]) swap
  let dropped := { renamed with lookups := renamed.lookups.erase "sides" }
  let added := { dropped with
    lookups := dropped.lookups.insert "more" [⟨⟨none, some 1, none⟩, ⟨none, some 0, none⟩⟩] }
  -- the edits one after the other
  have hrenamed : RuleDocument.LookupEdit wallDocument renamed :=
    .rename swap (Equiv.injective _).injOn (by decide +kernel)
  have hdropped : RuleDocument.LookupEdit renamed dropped := .drop (by decide +kernel)
  have hadded : RuleDocument.LookupEdit dropped added :=
    .add (by decide +kernel) (by decide +kernel)
  have hreordered : RuleDocument.LookupEdit added rebuiltWallDocument :=
    .reorder (.swap _ _ _)
  have hrebuilt := RuleDocument.tables_are_known_by_name hcompile
    (.tail (.tail (.tail (.single hrenamed) hdropped) hadded) hreordered)
  exact ⟨_, hcompile, hrebuilt, by decide +kernel⟩

end BlockData
