/-!
# Insertion-ordered dictionaries

Entries are pairs of a key and a value in the order in which the keys arrived.
Writing to a key that is present keeps its place, and erasing a key keeps the order
of the others.

`Entries` holds the operations on plain lists of pairs, which the children of a tag
are kept in.  `Dict` is such a list together with the fact that its keys are distinct,
which every operation keeps.

* `keys_insert` and `keys_erase` say which keys there are afterwards, and in what order;
* `get?_insert` and `get?_erase` say which values are found under them.
-/

namespace BlockData

/-- Pairs of a key and a value, in order of arrival. -/
abbrev Entries (α : Type) := List (String × α)

namespace Entries

variable {α β : Type}

/-- The keys in order. -/
def keys (entries : Entries α) : List String :=
  entries.map (·.1)

/-- No key occurs twice. -/
def Distinct (entries : Entries α) : Prop :=
  (keys entries).Nodup

instance (entries : Entries α) : Decidable (Distinct entries) :=
  inferInstanceAs (Decidable (List.Nodup _))

/-- The value under a key. -/
def get? : Entries α → String → Option α
  | [], _ => none
  | (k, v) :: rest, key => if k = key then some v else get? rest key

/-- Whether there is a value under a key. -/
def contains (entries : Entries α) (key : String) : Bool :=
  (get? entries key).isSome

/-- Write a value under a key: at the place of the key if it is present, otherwise
at the end. -/
def insert (key : String) (value : α) : Entries α → Entries α
  | [] => [(key, value)]
  | (k, v) :: rest =>
    if k = key then (key, value) :: rest else (k, v) :: insert key value rest

/-- Drop the entry of a key. -/
def erase (key : String) : Entries α → Entries α
  | [] => []
  | (k, v) :: rest => if k = key then rest else (k, v) :: erase key rest

/-- Write pairs one after the other. -/
def insertAll (entries : Entries α) (pairs : List (String × α)) : Entries α :=
  pairs.foldl (fun acc (key, value) => insert key value acc) entries

/-- The entries that result from writing pairs one after the other into nothing. -/
def ofList (pairs : List (String × α)) : Entries α :=
  insertAll [] pairs

/-- Apply a function to every value. -/
def mapValues (f : α → β) (entries : Entries α) : Entries β :=
  entries.map fun (key, value) => (key, f value)

/-! ## Keys -/

@[simp] theorem keys_nil : keys ([] : Entries α) = [] := rfl

@[simp] theorem keys_cons (pair : String × α) (rest : Entries α) :
    keys (pair :: rest) = pair.1 :: keys rest := rfl

/-- An insertion adds the key if it is new and changes no other key. -/
theorem keys_insert (key : String) (value : α) (entries : Entries α) :
    keys (insert key value entries) =
      if key ∈ keys entries then keys entries else keys entries ++ [key] := by
  induction entries with
  | nil => simp [insert]
  | cons pair rest ih =>
    obtain ⟨k, v⟩ := pair
    by_cases h : k = key
    · simp [insert, h]
    · by_cases hm : key ∈ keys rest <;> simp [insert, h, ih, hm, Ne.symm h]

/-- An erasure drops the key and no other. -/
theorem keys_erase (key : String) (entries : Entries α) :
    keys (erase key entries) = (keys entries).erase key := by
  induction entries with
  | nil => rfl
  | cons pair rest ih =>
    obtain ⟨k, v⟩ := pair
    by_cases h : k = key
    · simp [erase, h]
    · simp [erase, h, ih]

@[simp] theorem keys_mapValues (f : α → β) (entries : Entries α) :
    keys (mapValues f entries) = keys entries := by
  simp [keys, mapValues, Function.comp_def]

theorem distinct_insert (key : String) (value : α) {entries : Entries α}
    (h : Distinct entries) : Distinct (insert key value entries) := by
  unfold Distinct at *
  rw [keys_insert]
  split
  · exact h
  · next hm =>
    rw [List.nodup_append]
    refine ⟨h, by simp, ?_⟩
    intro a ha b hb
    simp only [List.mem_singleton] at hb
    exact fun hab => hm (hb ▸ hab ▸ ha)

theorem distinct_erase (key : String) {entries : Entries α} (h : Distinct entries) :
    Distinct (erase key entries) := by
  unfold Distinct at *
  rw [keys_erase]
  exact h.erase key

theorem distinct_insertAll (pairs : List (String × α)) {entries : Entries α}
    (h : Distinct entries) : Distinct (insertAll entries pairs) := by
  induction pairs generalizing entries with
  | nil => exact h
  | cons pair rest ih => exact ih (distinct_insert pair.1 pair.2 h)

theorem distinct_ofList (pairs : List (String × α)) : Distinct (ofList pairs) :=
  distinct_insertAll pairs List.nodup_nil

/-! ## Values -/

@[simp] theorem get?_nil (key : String) : get? ([] : Entries α) key = none := rfl

/-- A key has a value exactly if it is there. -/
theorem isSome_get? (entries : Entries α) (key : String) :
    (get? entries key).isSome ↔ key ∈ keys entries := by
  induction entries with
  | nil => simp
  | cons pair rest ih =>
    obtain ⟨k, v⟩ := pair
    by_cases h : k = key
    · simp [get?, h]
    · simp [get?, h, ih, Ne.symm h]

theorem get?_eq_none_iff (entries : Entries α) (key : String) :
    get? entries key = none ↔ key ∉ keys entries := by
  rw [← isSome_get?]
  simp

/-- An insertion is seen under its key and under no other. -/
theorem get?_insert (key : String) (value : α) (entries : Entries α) (other : String) :
    get? (insert key value entries) other =
      if key = other then some value else get? entries other := by
  induction entries with
  | nil => rfl
  | cons pair rest ih =>
    obtain ⟨k, v⟩ := pair
    by_cases h : k = key
    · by_cases ho : key = other <;> simp [insert, get?, h, ho]
    · by_cases ho : k = other
      · subst ho
        simp [insert, get?, h, Ne.symm h]
      · simp [insert, get?, h, ho, ih]

/-- An erasure is seen under its key and under no other, as no key stands twice. -/
theorem get?_erase (key : String) {entries : Entries α} (distinct : Distinct entries)
    (other : String) :
    get? (erase key entries) other = if key = other then none else get? entries other := by
  induction entries with
  | nil => simp [erase]
  | cons pair rest ih =>
    obtain ⟨k, v⟩ := pair
    obtain ⟨hk, hrest⟩ := List.nodup_cons.1 distinct
    by_cases h : k = key
    · by_cases ho : key = other
      · simpa [erase, h, ho] using (get?_eq_none_iff rest other).2 (ho ▸ h ▸ hk)
      · simp [erase, get?, h, ho]
    · by_cases ho : k = other
      · subst ho
        simp [erase, get?, h, Ne.symm h]
      · simp [erase, get?, h, ho, ih hrest]

/-- The value under a key is changed with all others. -/
theorem get?_mapValues (f : α → β) (entries : Entries α) (key : String) :
    get? (mapValues f entries) key = (get? entries key).map f := by
  induction entries with
  | nil => rfl
  | cons pair rest ih =>
    obtain ⟨k, v⟩ := pair
    by_cases h : k = key
    · simp [mapValues, get?, h]
    · simpa [mapValues, get?, h] using ih

end Entries

/-- A dictionary in insertion order: entries with distinct keys. -/
structure Dict (α : Type) where
  entries : Entries α
  distinct : entries.Distinct
  deriving DecidableEq, Repr

namespace Dict

variable {α β : Type}

/-- The dictionary without entries. -/
def empty : Dict α := ⟨[], List.nodup_nil⟩

instance : Inhabited (Dict α) := ⟨empty⟩

/-- The keys in order. -/
def keys (d : Dict α) : List String :=
  d.entries.keys

/-- The number of entries. -/
def size (d : Dict α) : Nat :=
  d.entries.length

/-- Whether there is no entry. -/
def isEmpty (d : Dict α) : Bool :=
  d.entries.isEmpty

/-- The value under a key. -/
def get? (d : Dict α) (key : String) : Option α :=
  d.entries.get? key

/-- Write a value under a key, at the place of the key or at the end. -/
def insert (d : Dict α) (key : String) (value : α) : Dict α :=
  ⟨d.entries.insert key value, Entries.distinct_insert key value d.distinct⟩

/-- Drop the entry of a key. -/
def erase (d : Dict α) (key : String) : Dict α :=
  ⟨d.entries.erase key, Entries.distinct_erase key d.distinct⟩

/-- Write pairs one after the other. -/
def insertAll (d : Dict α) (pairs : List (String × α)) : Dict α :=
  ⟨d.entries.insertAll pairs, Entries.distinct_insertAll pairs d.distinct⟩

/-- The dictionary that results from writing pairs one after the other. -/
def ofList (pairs : List (String × α)) : Dict α :=
  empty.insertAll pairs

/-- Apply a function to every value. -/
def map (f : α → β) (d : Dict α) : Dict β :=
  ⟨d.entries.mapValues f, by
    unfold Entries.Distinct
    rw [Entries.keys_mapValues]
    exact d.distinct⟩

theorem get?_insert (d : Dict α) (key : String) (value : α) (other : String) :
    (d.insert key value).get? other = if key = other then some value else d.get? other :=
  Entries.get?_insert key value d.entries other

theorem get?_erase (d : Dict α) (key other : String) :
    (d.erase key).get? other = if key = other then none else d.get? other :=
  Entries.get?_erase key d.distinct other

theorem get?_map (f : α → β) (d : Dict α) (key : String) :
    (d.map f).get? key = (d.get? key).map f :=
  Entries.get?_mapValues f d.entries key

/-- Two dictionaries with the same entries are the same. -/
@[ext] theorem ext {d e : Dict α} (h : d.entries = e.entries) : d = e := by
  cases d
  cases e
  congr

end Dict
end BlockData
