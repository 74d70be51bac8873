import BlockData.Proofs.Failure
import BlockData.Proofs.Number.Numeral
import BlockData.Proofs.Text.Blank
import BlockData.Proofs.Version
import Mathlib.Data.List.Forall2

/-!
# Versions as text

A grammar of versions in dotted form, and the reader against it.  A text without its outer
blanks has parts between its dots (`PartsOf`), and a version is spelled by three or four parts
(`SpelledBy`), each of which is a row of digits of value below 256, in any of the ways to write
it (`ComponentSpelledBy`).

* `component?_eq_some_iff` and `read_eq_ok_iff`: what is read is what is spelled;
* `read_eq_error_iff`: the number of parts is looked at first, then the parts in their order;
* `stripped_text` and `parted_text`: a version as it is written, with blanks around it;
* `dotted_form_is_read_exactly` puts them together.
-/

namespace BlockData.Version

open Number (Digit ofDigits)

/-! ## Digits -/

theorem decimalValue_map_char (digits : List Digit) :
    decimalValue (digits.map Digit.char) = ofDigits digits := by
  have hdigit : ∀ d : Digit, d.char.toNat - '0'.toNat = d.val := fun d =>
    Nat.toNat_digitChar_sub_48_of_lt_ten d.isLt
  simp only [decimalValue, ofDigits, List.foldl_map, hdigit]

/-- A text of digit characters is a row of digits. -/
theorem all_isDigit_iff {cs : List Char} :
    cs.all Char.isDigit = true ↔ ∃ digits : List Digit, cs = digits.map Digit.char := by
  constructor
  · intro h
    refine ⟨cs.map fun c => Digit.ofNat (c.toNat - '0'.toNat), ?_⟩
    rw [List.map_map]
    refine ((List.map_congr_left ?_).trans (List.map_id cs)).symm
    intro c hc
    exact Digit.char_ofNat_of_isDigit (List.all_eq_true.1 h c hc)
  · rintro ⟨digits, rfl⟩
    have hdigit : ∀ d : Digit, d.char.isDigit = true := by decide
    simp [hdigit]

/-! ## Components -/

/-- How a component may be spelled: by digits of its value, with leading zeros or none, and
with a plus sign or none. -/
inductive ComponentSpelledBy (value : UInt8) : List Char → Prop where
  | unsigned {digits : List Digit} (hdigits : digits ≠ [])
      (hvalue : ofDigits digits = value.toNat) :
      ComponentSpelledBy value (digits.map Digit.char)
  | positive {digits : List Digit} (hdigits : digits ≠ [])
      (hvalue : ofDigits digits = value.toNat) :
      ComponentSpelledBy value ('+' :: digits.map Digit.char)

/-- A component without the sign in front of it. -/
def magnitude (part : List Char) : List Char :=
  if part.head? = some '+' then part.tail else part

theorem component?_eq_some_iff_magnitude {part : List Char} {value : UInt8} :
    component? part = some value ↔
      ∃ digits : List Digit, digits ≠ [] ∧ magnitude part = digits.map Digit.char ∧
        ofDigits digits = value.toNat := by
  -- three checks on what is left of the part without its sign
  have hpart : component? part =
      if magnitude part ≠ [] ∧ (magnitude part).all Char.isDigit ∧
          decimalValue (magnitude part) < 256 then
        some (UInt8.ofNat (decimalValue (magnitude part)))
      else none := rfl
  rw [hpart]
  constructor
  · intro h
    split at h
    · next hcheck =>
      rcases hcheck with ⟨hnonempty, hall, hbound⟩
      rcases all_isDigit_iff.1 hall with ⟨digits, hdigits⟩
      refine ⟨digits, ?_, hdigits, ?_⟩
      · rintro rfl
        exact hnonempty hdigits
      · have hvalue : UInt8.ofNat (ofDigits digits) = value := by
          simpa [hdigits, decimalValue_map_char] using h
        rw [hdigits, decimalValue_map_char] at hbound
        rw [← hvalue, UInt8.toNat_ofNat_of_lt' hbound]
    · simp at h
  · rintro ⟨digits, hnonempty, hdigits, hvalue⟩
    have hall := all_isDigit_iff.2 ⟨digits, hdigits⟩
    rw [hdigits] at hall
    rw [hdigits, decimalValue_map_char, hvalue,
      if_pos ⟨by simpa using hnonempty, hall, value.toNat_lt⟩, UInt8.ofNat_toNat]

theorem char_ne_plus (d : Digit) : d.char ≠ '+' := by
  revert d
  decide

/-- A component is read exactly if it is spelled. -/
theorem component?_eq_some_iff {part : List Char} {value : UInt8} :
    component? part = some value ↔ ComponentSpelledBy value part := by
  rw [component?_eq_some_iff_magnitude]
  constructor
  · rintro ⟨digits, hnonempty, hdigits, hvalue⟩
    -- a plus in front is no digit, and so it can only be the sign
    by_cases hplus : part.head? = some '+'
    · cases part with
      | nil => simp at hplus
      | cons c rest =>
        obtain rfl : c = '+' := by simpa using hplus
        obtain rfl : rest = digits.map Digit.char := by simpa [magnitude] using hdigits
        exact .positive hnonempty hvalue
    · rw [magnitude, if_neg hplus] at hdigits
      rw [hdigits]
      exact .unsigned hnonempty hvalue
  · intro h
    cases h with
    | @unsigned digits hdigits hvalue =>
      refine ⟨digits, hdigits, if_neg ?_, hvalue⟩
      cases digits with
      | nil => exact absurd rfl hdigits
      | cons d digits => simpa using char_ne_plus d
    | @positive digits hdigits hvalue => exact ⟨digits, hdigits, rfl, hvalue⟩

/-- A component as it is written. -/
theorem componentSpelledBy_toDigits (value : UInt8) :
    ComponentSpelledBy value (Nat.toDigits 10 value.toNat) := by
  rw [← Number.map_char_decimalDigits]
  exact .unsigned (Number.decimalDigits_ne_nil _) (Number.ofDigits_decimalDigits _)

/-- A part spells a component of some value. -/
def IsComponent (part : List Char) : Prop :=
  ∃ value, ComponentSpelledBy value part

theorem component_eq_ok_iff {text : String} {part : List Char} {value : UInt8} :
    component text part = .ok value ↔ ComponentSpelledBy value part := by
  rw [← component?_eq_some_iff, component]
  cases component? part <;> simp

theorem component_eq_error_iff {text : String} {part : List Char} {error : ReadError} :
    component text part = .error error ↔
      ¬ IsComponent part ∧ error = .invalidComponent text (String.ofList part) := by
  simp only [IsComponent, ← component?_eq_some_iff, component]
  cases component? part <;> simp [eq_comm]

/-! ## Parts -/

/-- The parts between the dots of a text without its outer blanks. -/
def PartsOf (text : String) (parts : List (List Char)) : Prop :=
  ∃ body, Text.Stripped text.toList body ∧ Text.Parted '.' body parts

theorem partsOf_iff {text : String} {parts : List (List Char)} :
    PartsOf text parts ↔ Text.splitAt '.' (Text.trim text.toList) = parts := by
  simp only [PartsOf, ← Text.trim_eq_iff, ← Text.splitAt_eq_iff]
  simp

/-- A version has three or four parts. -/
def CountOfParts (parts : List (List Char)) : Prop :=
  parts.length = 3 ∨ parts.length = 4

/-- The version of some components in order.  One that is missing is zero. -/
def ofComponents (values : List UInt8) : Version :=
  ⟨values.getD 0 0, values.getD 1 0, values.getD 2 0, values.getD 3 0⟩

/-- The parts that may spell a version. -/
structure SpelledBy (v : Version) (parts : List (List Char)) : Prop where
  count : CountOfParts parts
  components : ∃ values, List.Forall₂ ComponentSpelledBy values parts ∧ v = ofComponents values

/-- The first of some parts that is no component. -/
def FirstInvalid (parts : List (List Char)) (part : List Char) : Prop :=
  ∃ before after, parts = before ++ part :: after ∧ (∀ other ∈ before, IsComponent other) ∧
    ¬ IsComponent part

theorem mapM_component_eq_ok_iff {text : String} {parts : List (List Char)}
    {values : List UInt8} :
    parts.mapM (component text) = .ok values ↔
      List.Forall₂ ComponentSpelledBy values parts := by
  have hrelation : (fun value part => (.ok value : Except ReadError UInt8) = component text part) =
      ComponentSpelledBy := by
    funext value part
    exact propext (eq_comm.trans component_eq_ok_iff)
  rw [Failure.mapM_eq_ok_iff, eq_comm, ← List.forall₂_eq_eq_eq, List.forall₂_map_left_iff,
    List.forall₂_map_right_iff, hrelation]

theorem mapM_component_eq_error_iff {text : String} {parts : List (List Char)}
    {error : ReadError} :
    parts.mapM (component text) = .error error ↔
      ∃ part, FirstInvalid parts part ∧
        error = .invalidComponent text (String.ofList part) := by
  simp only [Failure.mapM_eq_error_iff, component_eq_ok_iff, component_eq_error_iff]
  constructor
  · rintro ⟨before, part, after, hparts, hbefore, hpart, herror⟩
    exact ⟨part, ⟨before, after, hparts, hbefore, hpart⟩, herror⟩
  · rintro ⟨part, ⟨before, after, hparts, hbefore, hpart⟩, herror⟩
    exact ⟨before, part, after, hparts, hbefore, hpart, herror⟩

/-- Three or four parts are read one after the other. -/
theorem read_of_count {text : String} {parts : List (List Char)} (hparts : PartsOf text parts)
    (hcount : CountOfParts parts) :
    read text = (parts.mapM (component text)).map ofComponents := by
  rw [partsOf_iff] at hparts
  rw [read, hparts]
  rcases hcount with hthree | hfour
  · obtain ⟨a, b, c, rfl⟩ := List.length_eq_three.1 hthree
    simp only [Failure.mapM_cons, List.mapM_nil]
    cases component text a <;> cases component text b <;> cases component text c <;> rfl
  · obtain ⟨a, b, c, d, rfl⟩ := List.length_eq_four.1 hfour
    simp only [Failure.mapM_cons, List.mapM_nil]
    cases component text a <;> cases component text b <;> cases component text c <;>
      cases component text d <;> rfl

theorem read_of_not_count {text : String} {parts : List (List Char)}
    (hparts : PartsOf text parts) (hcount : ¬ CountOfParts parts) :
    read text = .error (.componentCount text) := by
  rw [partsOf_iff] at hparts
  rw [read, hparts]
  split
  · exact absurd (.inl rfl) hcount
  · exact absurd (.inr rfl) hcount
  · rfl

/-- A version is read exactly if it is spelled. -/
theorem read_eq_ok_iff {text : String} {parts : List (List Char)} (hparts : PartsOf text parts)
    (v : Version) : read text = .ok v ↔ SpelledBy v parts := by
  by_cases hcount : CountOfParts parts
  · rw [read_of_count hparts hcount]
    constructor
    · intro h
      -- each part has to be the spelling of a component
      cases hvalues : parts.mapM (component text) with
      | error e => simp [hvalues, Except.map] at h
      | ok values =>
        have hv : ofComponents values = v := by simpa [hvalues, Except.map] using h
        exact ⟨hcount, values, mapM_component_eq_ok_iff.1 hvalues, hv.symm⟩
    · rintro ⟨-, values, hvalues, rfl⟩
      rw [mapM_component_eq_ok_iff.2 hvalues]
      rfl
  · rw [read_of_not_count hparts hcount]
    constructor
    · intro h
      simp at h
    · intro h
      exact absurd h.count hcount

theorem exists_spelledBy_iff {parts : List (List Char)} :
    (∃ v, SpelledBy v parts) ↔ CountOfParts parts ∧ ∀ part ∈ parts, IsComponent part := by
  have hvalues : (∃ values, List.Forall₂ ComponentSpelledBy values parts) ↔
      ∀ part ∈ parts, IsComponent part := by
    induction parts with
    | nil => simp
    | cons part parts ih =>
      rw [List.forall_mem_cons, ← ih]
      simp only [List.forall₂_cons_right_iff, IsComponent]
      constructor
      · rintro ⟨-, value, values, hvalue, hvalues, rfl⟩
        exact ⟨⟨value, hvalue⟩, values, hvalues⟩
      · rintro ⟨⟨value, hvalue⟩, values, hvalues⟩
        exact ⟨value :: values, value, values, hvalue, hvalues, rfl⟩
  rw [← hvalues]
  constructor
  · rintro ⟨v, hcount, values, hparts, -⟩
    exact ⟨hcount, values, hparts⟩
  · rintro ⟨hcount, values, hparts⟩
    exact ⟨ofComponents values, hcount, values, hparts, rfl⟩

/-- What is wrong is the number of the parts or else the first part that is no component. -/
theorem read_eq_error_iff {text : String} {parts : List (List Char)} (hparts : PartsOf text parts)
    (error : ReadError) :
    read text = .error error ↔
      ¬ CountOfParts parts ∧ error = .componentCount text ∨
        CountOfParts parts ∧ ∃ part, FirstInvalid parts part ∧
          error = .invalidComponent text (String.ofList part) := by
  by_cases hcount : CountOfParts parts
  · have hmap : read text = .error error ↔ parts.mapM (component text) = .error error := by
      rw [read_of_count hparts hcount]
      cases parts.mapM (component text) <;> simp [Except.map]
    rw [hmap, mapM_component_eq_error_iff]
    simp [hcount]
  · rw [read_of_not_count hparts hcount]
    simp [hcount, eq_comm]

/-! ## The written form -/

/-- The parts of a version as it is written. -/
def textParts (v : Version) : List (List Char) :=
  v.components.map fun value => Nat.toDigits 10 value.toNat

theorem toList_text (v : Version) : v.text.toList = ['.'].intercalate v.textParts := by
  have hdot : (toString ".").toList = ['.'] := rfl
  simp [text, textParts, components, List.intercalate, hdot]

theorem spelledBy_textParts (v : Version) : SpelledBy v v.textParts := by
  refine ⟨.inr rfl, v.components, ?_, rfl⟩
  rw [textParts, List.forall₂_map_right_iff, List.forall₂_same]
  intro value _
  exact componentSpelledBy_toDigits value

theorem isDigit_of_mem_textParts {v : Version} {part : List Char} (hpart : part ∈ v.textParts)
    {c : Char} (hc : c ∈ part) : c.isDigit = true := by
  rcases List.mem_map.1 hpart with ⟨value, -, rfl⟩
  exact Nat.isDigit_of_mem_toDigits (by decide) (by decide) hc

theorem parted_text (v : Version) : Text.Parted '.' v.text.toList v.textParts := by
  refine ⟨by simp [textParts, components], (toList_text v).symm, ?_⟩
  intro part hpart hdot
  exact absurd (isDigit_of_mem_textParts hpart hdot) (by decide)

theorem isBlank_of_isDigit {c : Char} (h : c.isDigit = true) : Text.isBlank c = false := by
  have hrange : '0'.toNat ≤ c.toNat ∧ c.toNat ≤ '9'.toNat := by
    simpa [Char.isDigit, Char.le_def, UInt32.le_iff_toNat_le] using h
  have hzero : '0'.toNat = 48 := rfl
  have hnine : '9'.toNat = 57 := rfl
  simp [Text.isBlank]
  omega

/-- A version as it is written may have blanks around it. -/
theorem stripped_text (v : Version) {before after : List Char} (hbefore : Text.AllBlank before)
    (hafter : Text.AllBlank after) :
    Text.Stripped (before ++ v.text.toList ++ after) v.text.toList := by
  have hchars : ∀ c ∈ v.text.toList, Text.isBlank c = false := by
    intro c hc
    rw [toList_text] at hc
    rcases Text.mem_intercalate hc with rfl | ⟨part, hpart, hmem⟩
    · rfl
    · exact isBlank_of_isDigit (isDigit_of_mem_textParts hpart hmem)
  exact ⟨⟨before, after, hbefore, hafter, rfl⟩,
    fun c hc => hchars c (List.mem_of_mem_head? hc),
    fun c hc => hchars c (List.mem_of_mem_getLast? hc)⟩

theorem read_text_between {v : Version} {before after : String}
    (hbefore : Text.AllBlank before.toList) (hafter : Text.AllBlank after.toList) :
    read (before ++ v.text ++ after) = .ok v := by
  have hparts : PartsOf (before ++ v.text ++ after) v.textParts := by
    refine ⟨v.text.toList, ?_, parted_text v⟩
    rw [String.toList_append, String.toList_append]
    exact stripped_text v hbefore hafter
  exact (read_eq_ok_iff hparts v).2 (spelledBy_textParts v)

/-- **The dotted form**.  Each text without its outer blanks has its parts between the dots.
It is a version exactly if there are three or four of them and each is a component, a row of
digits of value below 256 after a plus sign or none; the version then has these components, and
no revision is revision zero.  Otherwise the error names the text as it was given, and where the
number of the parts is right, the first of them that is no component.  A version as it is
written is read back with any blanks around it, and so is one that was read. -/
theorem dotted_form_is_read_exactly :
    (∀ text, ∃! parts, PartsOf text parts) ∧
    (∀ text parts, PartsOf text parts →
      ((∃ v, read text = .ok v) ↔ CountOfParts parts ∧ ∀ part ∈ parts, IsComponent part) ∧
      (∀ v, read text = .ok v ↔ SpelledBy v parts) ∧
      ∀ error, read text = .error error ↔
        ¬ CountOfParts parts ∧ error = .componentCount text ∨
          CountOfParts parts ∧ ∃ part, FirstInvalid parts part ∧
            error = .invalidComponent text (String.ofList part)) ∧
    (∀ (v : Version) (before after : String), Text.AllBlank before.toList →
      Text.AllBlank after.toList → read (before ++ v.text ++ after) = .ok v) ∧
    ∀ text v, read text = .ok v → read v.text = .ok v := by
  have hwritten : ∀ (v : Version) (before after : String), Text.AllBlank before.toList →
      Text.AllBlank after.toList → read (before ++ v.text ++ after) = .ok v :=
    fun _ _ _ hbefore hafter => read_text_between hbefore hafter
  refine ⟨fun text => ?_, fun text parts hparts => ⟨?_, ?_, ?_⟩, hwritten, ?_⟩
  · refine ⟨_, partsOf_iff.2 rfl, fun parts hparts => ?_⟩
    exact (partsOf_iff.1 hparts).symm
  · simp only [read_eq_ok_iff hparts]
    exact exists_spelledBy_iff
  · exact read_eq_ok_iff hparts
  · exact read_eq_error_iff hparts
  · intro text v _
    -- a version may stand without blanks around it
    have hnone : Text.AllBlank "".toList := by simp [Text.AllBlank]
    simpa using hwritten v "" "" hnone hnone

/-- A sign, leading zeros and wide blanks are read over, a lone sign is no component, and two
parts are too few whatever they are. -/
theorem dotted_form_of_some_texts :
    read "\u2003+01.002.3\n" = .ok ⟨1, 2, 3, 0⟩ ∧
    read " 1.+.256" = .error (.invalidComponent " 1.+.256" "+") ∧
    read "1.x " = .error (.componentCount "1.x ") ∧
    read ("\t" ++ text ⟨255, 0, 16, 7⟩ ++ "\u3000") = .ok ⟨255, 0, 16, 7⟩ ∧
    read (text ⟨1, 2, 3, 0⟩) = .ok ⟨1, 2, 3, 0⟩ := by
  rcases dotted_form_is_read_exactly with ⟨-, hread, hwritten, hagain⟩
  have hspelled : read "\u2003+01.002.3\n" = .ok ⟨1, 2, 3, 0⟩ := by
    have hparts : PartsOf "\u2003+01.002.3\n" [['+', '0', '1'], ['0', '0', '2'], ['3']] :=
      partsOf_iff.2 (by decide +kernel)
    refine ((hread _ _ hparts).2.1 _).2 ⟨.inl rfl, [1, 2, 3], ?_, rfl⟩
    exact .cons (@ComponentSpelledBy.positive 1 [0, 1] (by decide) rfl)
      (.cons (@ComponentSpelledBy.unsigned 2 [0, 0, 2] (by decide) rfl)
        (.cons (@ComponentSpelledBy.unsigned 3 [3] (by decide) rfl) .nil))
  refine ⟨hspelled, ?_, ?_, ?_, hagain _ _ hspelled⟩
  · have hparts : PartsOf " 1.+.256" [['1'], ['+'], ['2', '5', '6']] :=
      partsOf_iff.2 (by decide +kernel)
    have hone : IsComponent ['1'] := ⟨1, @ComponentSpelledBy.unsigned 1 [1] (by decide) rfl⟩
    -- a sign without digits is no component
    have hsign : ¬ IsComponent ['+'] := by
      rintro ⟨value, hvalue⟩
      exact absurd (component?_eq_some_iff.2 hvalue) (by simp [component?])
    have hfirst : FirstInvalid [['1'], ['+'], ['2', '5', '6']] ['+'] :=
      ⟨[['1']], [['2', '5', '6']], rfl, by simpa using hone, hsign⟩
    exact ((hread _ _ hparts).2.2 _).2 (.inr ⟨.inl rfl, ['+'], hfirst, rfl⟩)
  · have hparts : PartsOf "1.x " [['1'], ['x']] := partsOf_iff.2 (by decide +kernel)
    exact ((hread _ _ hparts).2.2 _).2 (.inl ⟨by simp [CountOfParts], rfl⟩)
  · refine hwritten _ _ _ ?_ ?_
    · simp [Text.AllBlank, Text.isBlank]
    · simp [Text.AllBlank, Text.isBlank]

end BlockData.Version
