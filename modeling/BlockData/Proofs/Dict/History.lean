import BlockData.Proofs.Dict
import Mathlib.Data.List.Induction
import Mathlib.Order.Bounds.Basic

/-!
# Entries and their history

Entries that begin empty are told by the changes made to them.  A key is there if it was written
and not erased since, its value is the one written last, and the keys stand in the order of the
moments at which they became present for the last time.

* `Present`, `Holds` and `LastArrival` say this of a history, without any entries;
* `Keeps.change` is the step: entries that keep a history keep it with one change more;
* `keeps_replay` is the run.
-/

namespace BlockData

/-- A change under a key: a value is written, or what is there is erased. -/
structure Change (α : Type) where
  key : String
  /-- The value under the key from now on. -/
  value : Option α

/-- Changes in the order in which they were made. -/
abbrev History (α : Type) := List (Change α)

namespace History

variable {α : Type}

/-! ## What a history says -/

/-- A key was written, and not erased since. -/
def Present (history : History α) (key : String) : Prop :=
  ∃ before value after, history = before ++ ⟨key, some value⟩ :: after ∧ ⟨key, none⟩ ∉ after

/-- A value was written under a key, and nothing was changed there since. -/
def Holds (history : History α) (key : String) (value : α) : Prop :=
  ∃ before after, history = before ++ ⟨key, some value⟩ :: after ∧
    ∀ change ∈ after, change.key ≠ key

/-- A key becomes present by the change at a moment, and was not there before. -/
def ArrivesAt (history : History α) (key : String) (moment : Nat) : Prop :=
  ¬ Present (history.take moment) key ∧ Present (history.take (moment + 1)) key

/-- The moment at which a key became present for the last time. -/
def LastArrival (history : History α) (key : String) (moment : Nat) : Prop :=
  IsGreatest {m | ArrivesAt history key m} moment

/-! ## One change more -/

/-- The last change of a history stands at the end or in front of it. -/
theorem snoc_eq_append_cons_iff {history before after : History α} {last middle : Change α} :
    history ++ [last] = before ++ middle :: after ↔
      (history = before ∧ last = middle ∧ after = []) ∨
        ∃ rest, after = rest ++ [last] ∧ history = before ++ middle :: rest := by
  constructor
  · intro h
    rcases List.eq_nil_or_concat after with rfl | ⟨rest, final, rfl⟩
    · obtain ⟨hbefore, hlast⟩ := List.append_inj' h rfl
      exact .inl ⟨hbefore, List.singleton_inj.1 hlast, rfl⟩
    · have hsplit : history ++ [last] = (before ++ middle :: rest) ++ [final] := by simpa using h
      obtain ⟨hhistory, hlast⟩ := List.append_inj' hsplit rfl
      exact .inr ⟨rest, by simp [List.singleton_inj.1 hlast], hhistory⟩
  · rintro (⟨rfl, rfl, rfl⟩ | ⟨rest, rfl, rfl⟩) <;> simp

/-- A change decides whether its key is present, and has no influence on others. -/
theorem present_snoc_iff {history : History α} {change : Change α} {key : String} :
    Present (history ++ [change]) key ↔
      if change.key = key then change.value ≠ none else Present history key := by
  obtain ⟨name, value⟩ := change
  constructor
  · rintro ⟨before, written, after, hsplit, hafter⟩
    -- the key has arrived with the last change, or before it
    rcases snoc_eq_append_cons_iff.1 hsplit with ⟨-, hlast, -⟩ | ⟨rest, rfl, hhistory⟩
    · obtain ⟨rfl, rfl⟩ := Change.mk.inj hlast
      simp
    · rw [List.mem_append, List.mem_singleton, not_or] at hafter
      split
      · next hkey =>
        rintro rfl
        obtain rfl : name = key := hkey
        exact hafter.2 rfl
      · exact ⟨before, written, rest, hhistory, hafter.1⟩
  · intro h
    split at h
    · next hkey =>
      obtain ⟨written, rfl⟩ := Option.ne_none_iff_exists'.1 h
      obtain rfl : name = key := hkey
      exact ⟨history, written, [], rfl, List.not_mem_nil⟩
    · next hkey =>
      obtain ⟨before, written, after, rfl, hafter⟩ := h
      refine ⟨before, written, after ++ [⟨name, value⟩], by simp, ?_⟩
      rw [List.mem_append, List.mem_singleton, not_or]
      exact ⟨hafter, fun heq => hkey (Change.mk.inj heq).1.symm⟩

/-- A change decides what is held under its key, and has no influence on others. -/
theorem holds_snoc_iff {history : History α} {change : Change α} {key : String} {value : α} :
    Holds (history ++ [change]) key value ↔
      if change.key = key then change.value = some value else Holds history key value := by
  obtain ⟨name, written⟩ := change
  constructor
  · rintro ⟨before, after, hsplit, hafter⟩
    -- the value comes from the last change, or from one before it
    rcases snoc_eq_append_cons_iff.1 hsplit with ⟨-, hlast, -⟩ | ⟨rest, rfl, hhistory⟩
    · obtain ⟨rfl, rfl⟩ := Change.mk.inj hlast
      simp
    · rw [List.forall_mem_append, List.forall_mem_singleton] at hafter
      rw [if_neg hafter.2]
      exact ⟨before, rest, hhistory, hafter.1⟩
  · intro h
    split at h
    · next hkey =>
      obtain rfl : name = key := hkey
      obtain rfl : written = some value := h
      exact ⟨history, [], rfl, by simp⟩
    · next hkey =>
      obtain ⟨before, after, rfl, hafter⟩ := h
      refine ⟨before, after ++ [⟨name, written⟩], by simp, ?_⟩
      rw [List.forall_mem_append, List.forall_mem_singleton]
      exact ⟨hafter, hkey⟩

/-- A key arrives within the history. -/
theorem ArrivesAt.lt_length {history : History α} {key : String} {moment : Nat}
    (h : ArrivesAt history key moment) : moment < history.length := by
  by_contra hlate
  obtain ⟨habsent, hpresent⟩ := h
  rw [List.take_of_length_le (by omega)] at habsent hpresent
  exact habsent hpresent

/-- Arrivals stay as they are, and the last change may be one more. -/
theorem arrivesAt_snoc_iff {history : History α} {change : Change α} {key : String}
    {moment : Nat} : ArrivesAt (history ++ [change]) key moment ↔
      ArrivesAt history key moment ∨
        moment = history.length ∧ ¬ Present history key ∧ Present (history ++ [change]) key := by
  -- the last change is the only one by which more can arrive
  rcases Nat.lt_trichotomy moment history.length with hlt | rfl | hgt
  · have hne : moment ≠ history.length := by omega
    rw [ArrivesAt, List.take_append_of_le_length (by omega),
      List.take_append_of_le_length (by omega)]
    simp [hne, ArrivesAt]
  · have hno : ¬ ArrivesAt history key history.length := fun h => Nat.lt_irrefl _ h.lt_length
    rw [ArrivesAt, List.take_append_of_le_length (Nat.le_refl _), List.take_length,
      List.take_of_length_le (by simp)]
    simp [hno]
  · have hno : ¬ ArrivesAt history key moment := fun h => by have := h.lt_length; omega
    have hno' : ¬ ArrivesAt (history ++ [change]) key moment := fun h => by
      have := h.lt_length
      rw [List.length_append, List.length_singleton] at this
      omega
    simp [hno, hno', Nat.ne_of_gt hgt]

/-- A key that is there does not arrive by another change. -/
theorem lastArrival_snoc_of_present {history : History α} {change : Change α} {key : String}
    {moment : Nat} (h : Present history key) :
    LastArrival (history ++ [change]) key moment ↔ LastArrival history key moment := by
  simp [LastArrival, arrivesAt_snoc_iff, h]

/-- A key that comes by the last change has its last arrival there. -/
theorem lastArrival_snoc_of_not_present {history : History α} {change : Change α} {key : String}
    (h : ¬ Present history key) (hchange : Present (history ++ [change]) key) :
    LastArrival (history ++ [change]) key history.length := by
  refine ⟨arrivesAt_snoc_iff.2 (.inr ⟨rfl, h, hchange⟩), ?_⟩
  intro moment hmoment
  rcases arrivesAt_snoc_iff.1 hmoment with hbefore | ⟨rfl, -⟩
  · exact hbefore.lt_length.le
  · exact Nat.le_refl _

/-- A key that is there has arrived at some moment for the last time. -/
theorem exists_lastArrival {history : History α} {key : String} (h : Present history key) :
    ∃ moment, LastArrival history key moment := by
  induction history using List.reverseRecOn with
  | nil =>
    obtain ⟨before, value, after, hsplit, -⟩ := h
    simp at hsplit
  | append_singleton history change ih =>
    by_cases hbefore : Present history key
    · obtain ⟨moment, hmoment⟩ := ih hbefore
      exact ⟨moment, (lastArrival_snoc_of_present hbefore).2 hmoment⟩
    · exact ⟨history.length, lastArrival_snoc_of_not_present hbefore h⟩

end History

namespace Entries

open History

variable {α : Type}

/-! ## Entries after their changes -/

/-- Make a change. -/
def change (entries : Entries α) (change : Change α) : Entries α :=
  match change.value with
  | some value => insert change.key value entries
  | none => erase change.key entries

/-- Make changes to nothing, one after the other. -/
def replay (history : History α) : Entries α :=
  history.foldl change []

/-- Entries are what is left by a history. -/
structure Keeps (entries : Entries α) (history : History α) : Prop where
  /-- No key stands twice. -/
  distinct : (keys entries).Nodup
  /-- The keys are those that were written and not erased since. -/
  mem_keys_iff : ∀ key, key ∈ keys entries ↔ Present history key
  /-- The keys stand in the order of their last arrivals. -/
  ordered : (keys entries).Pairwise fun a b => ∃ i j,
    LastArrival history a i ∧ LastArrival history b j ∧ i < j
  /-- Under each key there is what was written last. -/
  get?_eq_some_iff : ∀ key value, get? entries key = some value ↔ Holds history key value

theorem keeps_nil : Keeps ([] : Entries α) [] where
  distinct := List.nodup_nil
  mem_keys_iff key := by simp [Present]
  ordered := .nil
  get?_eq_some_iff key value := by simp [Holds]

/-- Keys that are there keep their order whatever the next change is. -/
theorem Keeps.ordered_snoc {entries : Entries α} {history : History α} (h : Keeps entries history)
    (change : Change α) : (keys entries).Pairwise fun a b => ∃ i j,
      LastArrival (history ++ [change]) a i ∧ LastArrival (history ++ [change]) b j ∧ i < j := by
  refine h.ordered.imp_of_mem fun ha hb => ?_
  rintro ⟨i, j, hi, hj, hlt⟩
  exact ⟨i, j, (lastArrival_snoc_of_present ((h.mem_keys_iff _).1 ha)).2 hi,
    (lastArrival_snoc_of_present ((h.mem_keys_iff _).1 hb)).2 hj, hlt⟩

/-- Writing keeps a history. -/
theorem Keeps.insert {entries : Entries α} {history : History α} (h : Keeps entries history)
    (key : String) (value : α) :
    Keeps (insert key value entries) (history ++ [⟨key, some value⟩]) where
  distinct := distinct_insert key value h.distinct
  mem_keys_iff other := by
    rw [present_snoc_iff, ← h.mem_keys_iff, keys_insert]
    by_cases hother : key = other
    · split <;> simp_all
    · split <;> simp [Ne.symm hother]
  ordered := by
    rw [keys_insert]
    split
    · exact h.ordered_snoc _
    · next hnew =>
      -- a new key goes to the end, and it is the last to have arrived
      have habsent : ¬ Present history key := fun hpresent => hnew ((h.mem_keys_iff key).2 hpresent)
      have hpresent : Present (history ++ [⟨key, some value⟩]) key :=
        present_snoc_iff.2 (by simp)
      refine List.pairwise_append.2 ⟨h.ordered_snoc _, List.pairwise_singleton _ _,
        fun a ha b hb => ?_⟩
      obtain rfl := List.mem_singleton.1 hb
      have hpresent' := (h.mem_keys_iff a).1 ha
      obtain ⟨i, hi⟩ := exists_lastArrival hpresent'
      exact ⟨i, history.length, (lastArrival_snoc_of_present hpresent').2 hi,
        lastArrival_snoc_of_not_present habsent hpresent, hi.1.lt_length⟩
  get?_eq_some_iff other found := by
    rw [holds_snoc_iff, get?_insert]
    split
    · rfl
    · exact h.get?_eq_some_iff other found

/-- Erasing keeps a history. -/
theorem Keeps.erase {entries : Entries α} {history : History α} (h : Keeps entries history)
    (key : String) : Keeps (erase key entries) (history ++ [⟨key, none⟩]) where
  distinct := distinct_erase key h.distinct
  mem_keys_iff other := by
    rw [present_snoc_iff, ← h.mem_keys_iff, keys_erase, h.distinct.mem_erase_iff]
    by_cases hother : key = other <;> simp [hother, Ne.symm]
  ordered := by
    rw [keys_erase]
    exact (h.ordered_snoc _).sublist List.erase_sublist
  get?_eq_some_iff other found := by
    rw [holds_snoc_iff, get?_erase key h.distinct]
    split
    · simp
    · exact h.get?_eq_some_iff other found

/-- Every change keeps a history. -/
theorem Keeps.change {entries : Entries α} {history : History α} (h : Keeps entries history)
    (change : Change α) : Keeps (entries.change change) (history ++ [change]) := by
  obtain ⟨key, value⟩ := change
  cases value with
  | some value => exact h.insert key value
  | none => exact h.erase key

/-- What is left by changes, made one after the other, is told by their history. -/
theorem keeps_replay (history : History α) : Keeps (replay history) history := by
  induction history using List.reverseRecOn with
  | nil => exact keeps_nil
  | append_singleton history change ih =>
    rw [replay, List.foldl_append]
    exact ih.change change

end Entries
end BlockData
