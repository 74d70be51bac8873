import BlockData.Text.Blank

/-!
# Outer blanks and separators

What is left of a text without its outer blanks, and which parts a separator leaves, are
determined by what they look like:

* `trim_eq_iff`: a text without the blanks around it is the one body that neither begins nor
  ends with a blank;
* `splitAt_eq_iff`: the parts of a text are the one list of texts without the separator that
  gives the text again when the separator is written between them.
-/

namespace BlockData.Text

/-! ## Outer blanks -/

/-- A text of blanks only. -/
def AllBlank (cs : List Char) : Prop :=
  ∀ c ∈ cs, isBlank c = true

/-- A text has blanks around a body, which neither begins nor ends with a blank. -/
structure Stripped (cs body : List Char) : Prop where
  around : ∃ before after, AllBlank before ∧ AllBlank after ∧ cs = before ++ body ++ after
  first : ∀ c ∈ body.head?, isBlank c = false
  last : ∀ c ∈ body.getLast?, isBlank c = false

theorem dropBlanks_append {before : List Char} (h : AllBlank before) (cs : List Char) :
    dropBlanks (before ++ cs) = dropBlanks cs :=
  List.dropWhile_append_of_pos h

theorem dropBlanks_of_allBlank {cs : List Char} (h : AllBlank cs) : dropBlanks cs = [] := by
  simpa [dropBlanks] using dropBlanks_append h []

/-- Nothing is dropped where no blank comes first. -/
theorem dropBlanks_of_first {cs : List Char} (h : ∀ c ∈ cs.head?, isBlank c = false) :
    dropBlanks cs = cs := by
  cases cs with
  | nil => rfl
  | cons c rest =>
    have hc : isBlank c = false := h c rfl
    simp [dropBlanks, hc]

theorem first_dropBlanks (cs : List Char) : ∀ c ∈ (dropBlanks cs).head?, isBlank c = false := by
  intro c hc
  have hfirst := List.head?_dropWhile_not isBlank cs
  rw [dropBlanks, Option.mem_def] at hc
  simpa [hc] using hfirst

/-- What is dropped is a row of blanks in front. -/
theorem exists_append_dropBlanks (cs : List Char) :
    ∃ before, AllBlank before ∧ cs = before ++ dropBlanks cs := by
  refine ⟨cs.takeWhile isBlank, ?_, List.takeWhile_append_dropWhile.symm⟩
  exact List.all_eq_true.1 List.all_takeWhile

theorem stripped_trim (cs : List Char) : Stripped cs (trim cs) := by
  rcases exists_append_dropBlanks cs with ⟨before, hbefore, hcs⟩
  rcases exists_append_dropBlanks (dropBlanks cs).reverse with ⟨after, hafter, hrest⟩
  -- the second row of blanks is found from behind
  have hbody : dropBlanks cs = trim cs ++ after.reverse := by
    rw [← List.reverse_reverse (dropBlanks cs), hrest, List.reverse_append]
    rfl
  refine ⟨⟨before, after.reverse, hbefore, ?_, ?_⟩, ?_, ?_⟩
  · intro c hc
    exact hafter c (List.mem_reverse.1 hc)
  · rw [List.append_assoc, ← hbody]
    exact hcs
  · intro c hc
    apply first_dropBlanks cs c
    rw [Option.mem_def] at hc ⊢
    rw [hbody, List.head?_append, hc]
    rfl
  · intro c hc
    rw [trim, List.getLast?_reverse] at hc
    exact first_dropBlanks _ c hc

theorem trim_of_stripped {cs body : List Char} (h : Stripped cs body) : trim cs = body := by
  rcases h.around with ⟨before, after, hbefore, hafter, rfl⟩
  have hbehind : AllBlank after.reverse := fun c hc => hafter c (List.mem_reverse.1 hc)
  rw [trim, List.append_assoc, dropBlanks_append hbefore]
  cases body with
  | nil => rw [List.nil_append, dropBlanks_of_allBlank hafter]; rfl
  | cons first rest =>
    have hfront : dropBlanks (first :: rest ++ after) = first :: rest ++ after :=
      dropBlanks_of_first h.first
    have hback : dropBlanks (first :: rest).reverse = (first :: rest).reverse := by
      apply dropBlanks_of_first
      rw [List.head?_reverse]
      exact h.last
    rw [hfront, List.reverse_append, dropBlanks_append hbehind, hback, List.reverse_reverse]

/-- The body between the outer blanks is what trimming leaves. -/
theorem trim_eq_iff {cs body : List Char} : trim cs = body ↔ Stripped cs body := by
  constructor
  · rintro rfl
    exact stripped_trim cs
  · exact trim_of_stripped

example : trim " a b\t".toList = "a b".toList := by decide

/-! ## Parts between separators -/

/-- Parts without the separator that give a text when the separator stands between them. -/
structure Parted (separator : Char) (cs : List Char) (parts : List (List Char)) : Prop where
  nonempty : parts ≠ []
  joined : [separator].intercalate parts = cs
  apart : ∀ part ∈ parts, separator ∉ part

theorem mem_intercalate {separator c : Char} {parts : List (List Char)}
    (h : c ∈ [separator].intercalate parts) : c = separator ∨ ∃ part ∈ parts, c ∈ part := by
  induction parts with
  | nil => simp at h
  | cons part parts ih =>
    cases parts with
    | nil => exact .inr ⟨part, by simp, by simpa using h⟩
    | cons next parts =>
      rw [List.intercalate_cons_cons, List.mem_append, List.mem_append, List.mem_singleton] at h
      rcases h with (hpart | hseparator) | hrest
      · exact .inr ⟨part, by simp, hpart⟩
      · exact .inl hseparator
      · rcases ih hrest with hseparator | ⟨other, hother, hc⟩
        · exact .inl hseparator
        · exact .inr ⟨other, List.mem_cons_of_mem _ hother, hc⟩

theorem splitAt_eq_splitOn (separator : Char) (cs : List Char) :
    splitAt separator cs = cs.splitOn separator := by
  induction cs with
  | nil => rfl
  | cons c rest ih =>
    rw [List.splitOn_eq_splitOnP] at ih ⊢
    rw [List.splitOnP_cons_eq_if_modifyHead, splitAt, ← ih]
    by_cases hc : c = separator
    · simp [hc]
    · cases hparts : splitAt separator rest with
      | nil => exact absurd hparts (splitAt_ne_nil separator rest)
      | cons part parts => simp [hc]

theorem not_mem_of_mem_splitAt {separator : Char} {cs part : List Char}
    (h : part ∈ splitAt separator cs) : separator ∉ part := by
  induction cs generalizing part with
  | nil => simp_all [splitAt]
  | cons c rest ih =>
    rw [splitAt] at h
    split at h
    · rcases List.mem_cons.1 h with rfl | hrest
      · simp
      · exact ih hrest
    · next hc =>
      cases hparts : splitAt separator rest with
      | nil => exact absurd hparts (splitAt_ne_nil separator rest)
      | cons first parts =>
        rw [hparts] at h
        rcases List.mem_cons.1 h with rfl | hrest
        · have hfirst : separator ∉ first := ih (by simp [hparts])
          simp [hfirst, Ne.symm hc]
        · exact ih (by simp [hparts, hrest])

/-- The parts of a text are those that the separator joins to it. -/
theorem splitAt_eq_iff {separator : Char} {cs : List Char} {parts : List (List Char)} :
    splitAt separator cs = parts ↔ Parted separator cs parts := by
  constructor
  · rintro rfl
    refine ⟨splitAt_ne_nil separator cs, ?_, fun part => not_mem_of_mem_splitAt⟩
    rw [splitAt_eq_splitOn, List.intercalate_splitOn]
  · intro h
    rw [splitAt_eq_splitOn, ← h.joined, List.splitOn_intercalate separator h.apart h.nonempty]

example : splitAt '.' "1..2".toList = ["1".toList, [], "2".toList] := by decide

end BlockData.Text
