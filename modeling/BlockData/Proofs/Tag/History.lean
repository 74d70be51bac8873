import BlockData.Proofs.Dict.History
import BlockData.Proofs.Json.Spelling
import BlockData.Proofs.Tag.Text

/-!
# Compounds and their history

A compound is read from an object, or collected from pairs, and then changed.  Both beginnings
are the pairs put one after the other, repeated keys included, so that at any time the compound
is told by its history: which keys are there, in which order, and what is under them.

* `read?_eq_some_iff` says which compound a text is read as;
* `edited_ofList` turns edits into changes of entries;
* `compounds_keep_their_history` is the result.
-/

namespace BlockData

/-! ## Reading the members of an object -/

/-- Named values write the tags of pairs, one by one and under the same names. -/
def WritesPairs (members : List (String × Json)) (pairs : List (String × Tag)) : Prop :=
  List.Forall₂ (fun member pair => member.1 = pair.1 ∧ Tag.ofJson? member.2 = some pair.2)
    members pairs

theorem Tag.childrenOfJson?_eq_some_iff {members : List (Quotation × Json)}
    {pairs : List (String × Tag)} :
    childrenOfJson? members = some pairs ↔ ∃ named : List (String × Json),
      members = named.map (fun (name, value) => (some name, value)) ∧ WritesPairs named pairs := by
  constructor
  · intro h
    induction members generalizing pairs with
    | nil =>
      obtain rfl := Option.some.inj h
      exact ⟨[], rfl, .nil⟩
    | cons member members ih =>
      obtain ⟨name, value⟩ := member
      unfold childrenOfJson? at h
      split at h
      · next _ name tag children htag hchildren =>
        -- the name is a text and its value a tag, or there is no result
        obtain rfl := Option.some.inj h
        obtain ⟨named, rfl, hnamed⟩ := ih hchildren
        exact ⟨(name, value) :: named, rfl, .cons ⟨rfl, htag⟩ hnamed⟩
      · simp at h
  · rintro ⟨named, rfl, hnamed⟩
    induction hnamed with
    | nil => rfl
    | @cons member pair named pairs hpair _ ih =>
      obtain ⟨name, value⟩ := member
      obtain ⟨_, tag⟩ := pair
      obtain ⟨rfl, htag⟩ := hpair
      have htag : ofJson? value = some tag := htag
      simp [childrenOfJson?, htag, ih]

/-- A value of no more than some depth is read from the texts that spell it. -/
theorem Json.parseWithin?_eq_some_iff {limit : Nat} {text : String} {value : Json} :
    parseWithin? limit text = some value ↔
      value.SpelledBy text.toList ∧ value.depth ≤ limit := by
  rw [spelledBy_iff_lex, parseWithin?, Option.bind_eq_some_iff]
  constructor
  · rintro ⟨tokens, hlex, hvalue⟩
    split at hvalue
    · next hnesting =>
      obtain rfl := ofTokens?_eq_some_iff.1 hvalue
      exact ⟨hlex, by rwa [Token.nesting_tokens] at hnesting⟩
    · simp at hvalue
  · rintro ⟨hlex, hdepth⟩
    refine ⟨_, hlex, ?_⟩
    rw [Token.nesting_tokens, if_pos hdepth, ofTokens?_tokens]

namespace Compound

/-- A text is an object, not too deep, whose members write the tags of pairs. -/
def ObjectOf (text : String) (pairs : List (String × Tag)) : Prop :=
  ∃ members, (Json.record members).SpelledBy text.toList ∧
    (Json.record members).depth ≤ Tag.nestingLimit ∧ WritesPairs members pairs

/-- A compound is read from an object as the pairs that its members write, collected. -/
theorem read?_eq_some_iff {text : String} {c : Compound} :
    read? text = some c ↔ ∃ pairs, ObjectOf text pairs ∧ c = Entries.ofList pairs := by
  constructor
  · intro h
    obtain ⟨members, pairs, hparse, hpairs, rfl⟩ := read?_eq_some h
    obtain ⟨named, rfl, hnamed⟩ := Tag.childrenOfJson?_eq_some_iff.1 hpairs
    obtain ⟨hspelled, hdepth⟩ := Json.parseWithin?_eq_some_iff.1 hparse
    exact ⟨pairs, ⟨named, hspelled, hdepth, hnamed⟩, rfl⟩
  · rintro ⟨pairs, ⟨named, hspelled, hdepth, hnamed⟩, rfl⟩
    have hpairs := Tag.childrenOfJson?_eq_some_iff.2 ⟨named, rfl, hnamed⟩
    rw [read?, Json.parseWithin?_eq_some_iff.2 ⟨hspelled, hdepth⟩, Option.bind_some, Json.record,
      ofJson?, hpairs, Option.map_some]

/-! ## Edits -/

/-- What may be done to a compound. -/
inductive Edit where
  | put (key : String) (tag : Tag)
  | putString (key text : String)
  | putInt (key : String) (n : Int32)
  | putLong (key : String) (n : Int64)
  | putByte (key : String) (n : Int8)
  | remove (key : String)

/-- Do it. -/
def edit (c : Compound) : Edit → Compound
  | .put key tag => (c.put key tag).2
  | .putString key text => c.putString key text
  | .putInt key n => c.putInt key n
  | .putLong key n => c.putLong key n
  | .putByte key n => c.putByte key n
  | .remove key => (c.remove key).2

/-- The change of entries that it is. -/
def Edit.change : Edit → Change Tag
  | put key tag => ⟨key, some tag⟩
  | putString key text => ⟨key, some (.string text)⟩
  | putInt key n => ⟨key, some (.int n)⟩
  | putLong key n => ⟨key, some (.long n)⟩
  | putByte key n => ⟨key, some (.byte n)⟩
  | remove key => ⟨key, none⟩

/-- The history of a compound that began as pairs: they were put one after the other, and then
the edits were made. -/
def historyOf (pairs : List (String × Tag)) (edits : List Edit) : History Tag :=
  pairs.map (fun (key, tag) => ⟨key, some tag⟩) ++ edits.map Edit.change

theorem edit_eq_change : edit = fun c asked => Entries.change c asked.change := by
  funext c asked
  cases asked <;> rfl

/-- Collected and edited, a compound is what its history leaves. -/
theorem edited_ofList (pairs : List (String × Tag)) (edits : List Edit) :
    edits.foldl edit (Entries.ofList pairs) = Entries.replay (historyOf pairs edits) := by
  have hpairs : Entries.ofList pairs =
      Entries.replay (pairs.map fun (key, tag) => ⟨key, some tag⟩) := by
    rw [Entries.replay, List.foldl_map]
    rfl
  rw [hpairs, edit_eq_change, historyOf, Entries.replay, Entries.replay, List.foldl_append,
    ← List.foldl_map]

/-- How a compound comes about: pairs are collected, or are read as the members of an object. -/
inductive MadeOf (pairs : List (String × Tag)) : Compound → Prop where
  | collected : MadeOf pairs (Entries.ofList pairs)
  | read {text : String} {c : Compound} (hobject : ObjectOf text pairs)
      (hread : read? text = some c) : MadeOf pairs c

theorem MadeOf.eq_ofList {pairs : List (String × Tag)} {c : Compound} (h : MadeOf pairs c) :
    c = Entries.ofList pairs := by
  cases h with
  | collected => rfl
  | read hobject hread =>
    rw [read?_eq_some_iff.2 ⟨pairs, hobject, rfl⟩] at hread
    exact (Option.some.inj hread).symm

/-- A compound that is read from an object is that of the object's members, collected.  However
a compound came about, and whatever was done to it since, it is told by this history: the keys
are those that were put and not removed since, none stands twice, and they are ordered by the
moments at which they became present for the last time; what is found under a key is what was put
last.  Its size and its keys agree, and what is put or removed next gives back what was held, and
moves no other key. -/
theorem compounds_keep_their_history :
    (∀ text c, read? text = some c ↔ ∃ pairs, ObjectOf text pairs ∧ c = Entries.ofList pairs) ∧
    ∀ (pairs : List (String × Tag)) (start : Compound) (edits : List Edit), MadeOf pairs start →
      let c := edits.foldl edit start
      Entries.Keeps c (historyOf pairs edits) ∧
      (c.length = c.keys.length ∧ (c.isEmpty ↔ c.keys = []) ∧
        ∀ key, c.contains key ↔ key ∈ c.keys) ∧
      (∀ key tag old, (c.put key tag).1 = some old ↔ (historyOf pairs edits).Holds key old) ∧
      (∀ key old, (c.remove key).1 = some old ↔ (historyOf pairs edits).Holds key old) ∧
      (∀ key tag, (c.put key tag).2.keys = if key ∈ c.keys then c.keys else c.keys ++ [key]) ∧
      (∀ key, (c.remove key).2.keys = c.keys.erase key) ∧
      ∀ key tag, ((c.remove key).2.put key tag).2.keys = c.keys.erase key ++ [key] := by
  refine ⟨fun text c => read?_eq_some_iff, fun pairs start edits hstart => ?_⟩
  intro c
  -- reading and editing are one history of entries that come and go
  have hkeeps : Entries.Keeps c (historyOf pairs edits) := by
    have hc : c = Entries.replay (historyOf pairs edits) := by
      rw [← edited_ofList, ← hstart.eq_ofList]
    rw [hc]
    exact Entries.keeps_replay (historyOf pairs edits)
  have hremoved : ∀ key, key ∉ c.keys.erase key := fun key => hkeeps.distinct.not_mem_erase
  refine ⟨hkeeps, ⟨?_, ?_, ?_⟩, ?_, ?_, ?_, ?_, ?_⟩
  · simp [Entries.keys]
  · simp [Entries.keys]
  · exact fun key => Entries.isSome_get? c key
  · exact fun key tag old => hkeeps.get?_eq_some_iff key old
  · exact fun key old => hkeeps.get?_eq_some_iff key old
  · exact fun key tag => Entries.keys_insert key tag c
  · exact fun key => Entries.keys_erase key c
  · -- the key has gone, so that it comes back at the end
    intro key tag
    have hkeys : (c.remove key).2.keys = c.keys.erase key := Entries.keys_erase key c
    have hput := Entries.keys_insert key tag (c.remove key).2
    rwa [hkeys, if_neg (hremoved key)] at hput

/-- An object in which a key stands twice. -/
def shelfText : String :=
  "\x7b\"a\":\x7b\"byte\":1\x7d, \"b\":\x7b\"byte\":2\x7d, \"a\":\x7b\"byte\":3\x7d\x7d"

/-- What its members write. -/
def shelfPairs : List (String × Tag) :=
  [("a", .byte 1), ("b", .byte 2), ("a", .byte 3)]

/-- The first key goes away and comes back at the end. -/
def shelfEdits : List Edit :=
  [.remove "a", .putString "c" "new", .put "b" (.list []), .putInt "a" 4]

theorem objectOf_shelfText : ObjectOf shelfText shelfPairs := by
  refine ⟨[("a", .record [("byte", .int 1)]), ("b", .record [("byte", .int 2)]),
    ("a", .record [("byte", .int 3)])], by decide +kernel, by decide, ?_⟩
  exact .cons ⟨rfl, rfl⟩ (.cons ⟨rfl, rfl⟩ (.cons ⟨rfl, rfl⟩ .nil))

/-- The object is read as its members are collected, and is told by its history afterwards. -/
theorem shelf_keeps_its_history :
    read? shelfText = some [("a", .byte 3), ("b", .byte 2)] ∧
      let c := shelfEdits.foldl edit [("a", .byte 3), ("b", .byte 2)]
      Entries.Keeps c (historyOf shelfPairs shelfEdits) ∧ c.keys = ["b", "c", "a"] ∧
        (historyOf shelfPairs shelfEdits).Holds "b" (.list []) ∧
        ((c.remove "b").2.put "b" (.byte 0)).2.keys = ["c", "a", "b"] := by
  obtain ⟨hreads, hhistory⟩ := compounds_keep_their_history
  have hread : read? shelfText = some [("a", .byte 3), ("b", .byte 2)] :=
    (hreads _ _).2 ⟨shelfPairs, objectOf_shelfText, rfl⟩
  obtain ⟨hkeeps, -, hput, -, -, -, hmoved⟩ :=
    hhistory shelfPairs _ shelfEdits (.read objectOf_shelfText hread)
  exact ⟨hread, hkeeps, rfl, (hput "b" (.byte 0) _).1 rfl, hmoved "b" (.byte 0)⟩

end Compound
end BlockData
