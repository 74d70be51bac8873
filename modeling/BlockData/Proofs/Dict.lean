import BlockData.Dict

/-!
# Laws of dictionaries

What the operations on entries do to each other, and what a dictionary that is written
pair by pair holds at the end.

* `ofList_of_distinct`: pairs with distinct keys are their own dictionary;
* `get?_ofList`: of pairs with the same key the last one counts;
* `insert_insert_self`, `insert_comm` and `erase_insert_comm` move writings past each other.
-/

namespace BlockData

namespace Entries

variable {α β : Type}

/-! ## Members -/

/-- What an insertion leaves is the new pair or was there before. -/
theorem mem_of_mem_insert {key : String} {value : α} {entries : Entries α}
    {pair : String × α} (h : pair ∈ insert key value entries) :
    pair = (key, value) ∨ pair ∈ entries := by
  induction entries with
  | nil => exact Or.inl (by simpa [insert] using h)
  | cons first rest ih =>
    rcases first with ⟨k, v⟩
    by_cases hk : k = key
    · rw [insert, if_pos hk, List.mem_cons] at h
      rcases h with h | h
      · exact Or.inl h
      · exact Or.inr (List.mem_cons_of_mem _ h)
    · rw [insert, if_neg hk, List.mem_cons] at h
      rcases h with h | h
      · exact Or.inr (h ▸ List.mem_cons_self)
      · exact (ih h).imp_right (List.mem_cons_of_mem _)

/-- An inserted key is there. -/
theorem mem_keys_insert_self {key : String} {value : α} {entries : Entries α} :
    key ∈ keys (insert key value entries) := by
  rw [keys_insert]
  split
  · assumption
  · simp

/-- An insertion keeps the keys that are there. -/
theorem mem_keys_insert_of_mem {key other : String} {value : α} {entries : Entries α}
    (h : other ∈ keys entries) : other ∈ keys (insert key value entries) := by
  rw [keys_insert]
  split
  · exact h
  · exact List.mem_append_left _ h

/-- What is there after writing pairs is one of the pairs or was there before. -/
theorem mem_of_mem_insertAll {entries : Entries α} {pairs : List (String × α)}
    {pair : String × α} (h : pair ∈ insertAll entries pairs) : pair ∈ pairs ∨ pair ∈ entries := by
  induction pairs generalizing entries with
  | nil => exact Or.inr h
  | cons first rest ih =>
    rcases ih h with hrest | hfirst
    · exact Or.inl (List.mem_cons_of_mem _ hrest)
    · rcases mem_of_mem_insert hfirst with rfl | hbefore
      · exact Or.inl List.mem_cons_self
      · exact Or.inr hbefore

/-- Entries are among the pairs that they were made of. -/
theorem mem_of_mem_ofList {pairs : List (String × α)} {pair : String × α}
    (h : pair ∈ ofList pairs) : pair ∈ pairs := by
  rcases mem_of_mem_insertAll h with hpair | hnone
  · exact hpair
  · exact absurd hnone List.not_mem_nil

/-- What an erasure leaves was there before. -/
theorem mem_of_mem_erase {key : String} {entries : Entries α} {pair : String × α}
    (h : pair ∈ erase key entries) : pair ∈ entries := by
  induction entries with
  | nil => exact h
  | cons first rest ih =>
    rcases first with ⟨k, v⟩
    by_cases hk : k = key
    · rw [erase, if_pos hk] at h
      exact List.mem_cons_of_mem _ h
    · rw [erase, if_neg hk, List.mem_cons] at h
      rcases h with h | h
      · exact h ▸ List.mem_cons_self
      · exact List.mem_cons_of_mem _ (ih h)

/-- A value that is found stands among the entries under its key. -/
theorem mem_of_get? {entries : Entries α} {key : String} {value : α}
    (h : get? entries key = some value) : (key, value) ∈ entries := by
  induction entries with
  | nil => simp at h
  | cons first rest ih =>
    rcases first with ⟨k, v⟩
    by_cases hk : k = key
    · have hv : v = value := by simpa [get?, hk] using h
      rw [hk, hv]
      exact List.mem_cons_self
    · exact List.mem_cons_of_mem _ (ih (by simpa [get?, hk] using h))

/-- A key is there if something is made of its value. -/
theorem mem_keys_of_isSome_bind {entries : Entries α} {key : String} {f : α → Option β}
    (h : ((get? entries key).bind f).isSome) : key ∈ keys entries := by
  rw [← isSome_get?]
  cases hfound : get? entries key with
  | none => simp [hfound] at h
  | some value => rfl

/-- Where no key stands twice, every entry is found under its key. -/
theorem get?_of_mem {entries : Entries α} (distinct : Distinct entries) {key : String}
    {value : α} (h : (key, value) ∈ entries) : get? entries key = some value := by
  induction entries with
  | nil => simp at h
  | cons first rest ih =>
    rcases first with ⟨k, v⟩
    rcases List.nodup_cons.1 distinct with ⟨hfirst, hrest⟩
    rcases List.mem_cons.1 h with heq | hmem
    · rcases Prod.mk.inj heq with ⟨rfl, rfl⟩
      simp [get?]
    · have hne : k ≠ key := by
        rintro rfl
        exact hfirst (List.mem_map.2 ⟨(k, value), hmem, rfl⟩)
      simpa [get?, hne] using ih hrest hmem

/-! ## Pairs written one after the other -/

/-- A new key goes to the end. -/
theorem insert_of_notMem {key : String} {value : α} {entries : Entries α}
    (h : key ∉ keys entries) : insert key value entries = entries ++ [(key, value)] := by
  induction entries with
  | nil => rfl
  | cons first rest ih =>
    rcases first with ⟨k, v⟩
    obtain ⟨hk, hrest⟩ : key ≠ k ∧ key ∉ keys rest := by simpa using h
    simp [insert, Ne.symm hk, ih hrest]

/-- Pairs whose keys are new and distinct are put behind what is there. -/
theorem insertAll_of_distinct {entries : Entries α} {pairs : List (String × α)}
    (h : Distinct (entries ++ pairs)) : insertAll entries pairs = entries ++ pairs := by
  induction pairs generalizing entries with
  | nil => simp [insertAll]
  | cons pair rest ih =>
    rcases pair with ⟨key, value⟩
    have hnew : key ∉ keys entries := by
      have hnodup : (keys entries ++ key :: keys rest).Nodup := by
        simpa [Distinct, keys] using h
      intro hmem
      exact (List.nodup_append.1 hnodup).2.2 key hmem key List.mem_cons_self rfl
    have hrest : Distinct (insert key value entries ++ rest) := by
      rw [insert_of_notMem hnew]
      simpa [Distinct] using h
    calc insertAll entries ((key, value) :: rest)
        = insertAll (insert key value entries) rest := rfl
      _ = insert key value entries ++ rest := ih hrest
      _ = entries ++ (key, value) :: rest := by rw [insert_of_notMem hnew]; simp

/-- Pairs with distinct keys are their own entries. -/
theorem ofList_of_distinct {pairs : List (String × α)} (h : Distinct pairs) :
    ofList pairs = pairs :=
  @insertAll_of_distinct α [] pairs h

/-- The last of the pairs with a key gives its value; without such a pair the value is
the one from before. -/
theorem get?_insertAll (entries : Entries α) (pairs : List (String × α)) (key : String) :
    get? (insertAll entries pairs) key =
      (((pairs.filter (·.1 = key)).map (·.2)).getLast?).or (get? entries key) := by
  induction pairs generalizing entries with
  | nil => simp [insertAll]
  | cons pair rest ih =>
    rcases pair with ⟨k, v⟩
    have hstep : get? (insertAll entries ((k, v) :: rest)) key =
        (((rest.filter (·.1 = key)).map (·.2)).getLast?).or
          (if k = key then some v else get? entries key) := by
      rw [← get?_insert]
      exact ih (insert k v entries)
    rw [hstep]
    by_cases hk : k = key
    · cases hlast : ((rest.filter (·.1 = key)).map (·.2)).getLast? <;>
        simp [hk, List.getLast?_cons, hlast]
    · simp [hk]

/-- Of pairs with the same key the last one counts. -/
theorem get?_ofList (pairs : List (String × α)) (key : String) :
    get? (ofList pairs) key = ((pairs.filter (·.1 = key)).map (·.2)).getLast? := by
  rw [ofList, get?_insertAll, get?_nil, Option.or_none]

/-- Keys that are new come last, each where it first arrives. -/
theorem keys_insertAll (entries : Entries α) (pairs : List (String × α)) :
    keys (insertAll entries pairs) =
      keys entries ++ ((keys pairs).removeAll (keys entries)).eraseDups := by
  induction pairs generalizing entries with
  | nil => simp [insertAll, List.removeAll]
  | cons pair rest ih =>
    rcases pair with ⟨key, value⟩
    have hstep : keys (insertAll entries ((key, value) :: rest)) =
        keys (insert key value entries) ++
          ((keys rest).removeAll (keys (insert key value entries))).eraseDups :=
      ih (insert key value entries)
    rw [hstep, keys_insert, keys_cons, List.cons_removeAll]
    by_cases hkey : key ∈ keys entries
    · simp [hkey]
    · -- the key takes its place, and it is passed over from there on
      have hremove : (keys rest).removeAll (keys entries ++ [key]) =
          ((keys rest).removeAll (keys entries)).filter fun other => !other == key := by
        rw [List.removeAll, List.removeAll, List.filter_filter]
        refine List.filter_congr fun other _ => ?_
        rw [Bool.eq_iff_iff]
        simp [and_comm]
      simp [hkey, List.eraseDups_cons, hremove]

/-- The keys stand in the order in which they first arrive. -/
theorem keys_ofList (pairs : List (String × α)) :
    keys (ofList pairs) = (keys pairs).eraseDups := by
  rw [ofList, keys_insertAll]
  simp

/-! ## Writings that follow each other -/

/-- Of two insertions under one key the second one counts. -/
theorem insert_insert_self (key : String) (first second : α) (entries : Entries α) :
    insert key second (insert key first entries) = insert key second entries := by
  induction entries with
  | nil => simp [insert]
  | cons pair rest ih =>
    rcases pair with ⟨k, v⟩
    by_cases hk : k = key
    · simp [insert, hk]
    · simp [insert, hk, ih]

/-- Nothing is changed by writing what is there, and by nothing else. -/
theorem insert_eq_self_iff {key : String} {value : α} {entries : Entries α} :
    insert key value entries = entries ↔ get? entries key = some value := by
  constructor
  · intro h
    rw [← h, get?_insert, if_pos rfl]
  · intro h
    induction entries with
    | nil => simp at h
    | cons pair rest ih =>
      rcases pair with ⟨k, v⟩
      by_cases hk : k = key
      · have hv : v = value := by simpa [get?, hk] using h
        simp [insert, hk, hv]
      · have hrest : get? rest key = some value := by simpa [get?, hk] using h
        simp [insert, hk, ih hrest]

/-- An insertion leaves the entries of other keys as they are, and in their order. -/
theorem filter_insert (key : String) (value : α) (entries : Entries α) :
    (insert key value entries).filter (·.1 ≠ key) = entries.filter (·.1 ≠ key) := by
  induction entries with
  | nil => simp [insert]
  | cons pair rest ih =>
    rcases pair with ⟨k, v⟩
    by_cases hk : k = key
    · simp [insert, hk]
    · simpa [insert, hk] using ih

/-- So does an erasure. -/
theorem filter_erase (key : String) (entries : Entries α) :
    (erase key entries).filter (·.1 ≠ key) = entries.filter (·.1 ≠ key) := by
  induction entries with
  | nil => rfl
  | cons pair rest ih =>
    rcases pair with ⟨k, v⟩
    by_cases hk : k = key
    · simp [erase, hk]
    · simpa [erase, hk] using ih

/-- Insertions under two keys may be exchanged if one of the keys is there already. -/
theorem insert_comm {key other : String} (hne : key ≠ other) (value value' : α)
    {entries : Entries α} (h : key ∈ keys entries) :
    insert key value (insert other value' entries) =
      insert other value' (insert key value entries) := by
  induction entries with
  | nil => simp at h
  | cons pair rest ih =>
    rcases pair with ⟨k, v⟩
    by_cases hk : k = key
    · simp [insert, hk, hne]
    · have hrest : key ∈ keys rest := by simpa [Ne.symm hk] using h
      by_cases hko : k = other
      · simp [insert, hko, Ne.symm hne]
      · simp [insert, hk, hko, ih hrest]

/-- An erasure and an insertion under another key may be exchanged. -/
theorem erase_insert_comm {key other : String} (hne : key ≠ other) (value : α)
    (entries : Entries α) :
    erase key (insert other value entries) = insert other value (erase key entries) := by
  induction entries with
  | nil => simp [insert, erase, Ne.symm hne]
  | cons pair rest ih =>
    rcases pair with ⟨k, v⟩
    by_cases hk : k = key
    · simp [insert, erase, hk, hne]
    · by_cases hko : k = other
      · simp [insert, erase, hko, Ne.symm hne]
      · simp [insert, erase, hk, hko, ih]

/-- A key that is not there cannot be erased. -/
theorem erase_of_notMem {key : String} {entries : Entries α} (h : key ∉ keys entries) :
    erase key entries = entries := by
  induction entries with
  | nil => rfl
  | cons pair rest ih =>
    rcases pair with ⟨k, v⟩
    obtain ⟨hk, hrest⟩ : key ≠ k ∧ key ∉ keys rest := by simpa using h
    simp [erase, Ne.symm hk, ih hrest]

/-- Nothing is changed by erasing a key that is not there, and by nothing else. -/
theorem erase_eq_self_iff {key : String} {entries : Entries α} (distinct : Distinct entries) :
    erase key entries = entries ↔ get? entries key = none := by
  constructor
  · intro h
    rw [← h, get?_erase key distinct, if_pos rfl]
  · intro h
    exact erase_of_notMem ((get?_eq_none_iff entries key).1 h)

/-! ## Entries left out -/

/-- The keys of what is not left out keep their order. -/
theorem keys_filterMap_sublist (f : α → Option β) (entries : Entries α) :
    List.Sublist (keys (entries.filterMap fun (key, value) => (f value).map (key, ·)))
      (keys entries) := by
  induction entries with
  | nil => simp
  | cons first rest ih =>
    rcases first with ⟨k, v⟩
    cases hf : f v with
    | none => simpa [hf] using ih.cons k
    | some w => simpa [hf] using ih.cons_cons k

/-- Entries that are left out do not make the others less distinct. -/
theorem distinct_filterMap (f : α → Option β) {entries : Entries α} (h : Distinct entries) :
    Distinct (entries.filterMap fun (key, value) => (f value).map (key, ·)) :=
  List.Nodup.sublist (keys_filterMap_sublist f entries) h

end Entries

namespace Dict

variable {α β : Type}

/-- Change the values of some entries, and leave the others out. -/
def filterMap (f : α → Option β) (d : Dict α) : Dict β :=
  ⟨d.entries.filterMap fun (key, value) => (f value).map (key, ·),
    Entries.distinct_filterMap f d.distinct⟩

theorem mem_keys_iff {d : Dict α} {key : String} :
    key ∈ d.keys ↔ ∃ value, d.get? key = some value := by
  rw [← Option.isSome_iff_exists]
  exact (Entries.isSome_get? d.entries key).symm

/-- A dictionary is the one of its entries. -/
theorem ofList_entries (d : Dict α) : ofList d.entries = d :=
  Dict.ext (Entries.ofList_of_distinct d.distinct)

/-- Of pairs with the same key the last one counts. -/
theorem get?_ofList (pairs : List (String × α)) (key : String) :
    (ofList pairs).get? key = ((pairs.filter (·.1 = key)).map (·.2)).getLast? :=
  Entries.get?_ofList pairs key

/-- The entries of a dictionary are among the pairs that it was made of. -/
theorem mem_of_mem_ofList {pairs : List (String × α)} {pair : String × α}
    (h : pair ∈ (ofList pairs).entries) : pair ∈ pairs :=
  Entries.mem_of_mem_ofList h

/-- Pairs are written one insertion after the other. -/
theorem insertAll_eq_foldl (d : Dict α) (pairs : List (String × α)) :
    d.insertAll pairs = pairs.foldl (fun acc pair => acc.insert pair.1 pair.2) d := by
  induction pairs generalizing d with
  | nil => rfl
  | cons pair rest ih => exact ih (d.insert pair.1 pair.2)

end Dict
end BlockData
