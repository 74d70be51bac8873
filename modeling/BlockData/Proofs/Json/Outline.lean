import BlockData.Json.Outline
import BlockData.Proofs.Json.Spelling

/-!
# Outlines spell their values

However a value is laid out, between its tokens there is nothing but white space.  A text of tokens
may be followed by another one (`TokensSpelledBy.append`), so that the text of an outline is built
as the tokens of its value are: `Outline.spelledBy_print`.
-/

namespace BlockData.Json

/-! ## Texts of tokens -/

namespace TokensSpelledBy

variable {token : Token} {tokens more : List Token} {cs rest letters : List Char}

theorem prepend {spaces : List Char} (hspaces : ∀ c ∈ spaces, isSpace c)
    (h : TokensSpelledBy tokens cs) : TokensSpelledBy tokens (spaces ++ cs) := by
  cases h with
  | nil hend => exact .nil (List.forall_mem_append.2 ⟨hspaces, hend⟩)
  | cons hfront hword hrest =>
    rw [← List.append_assoc]
    exact .cons (List.forall_mem_append.2 ⟨hspaces, hfront⟩) hword hrest

theorem space (h : TokensSpelledBy tokens cs) : TokensSpelledBy tokens (' ' :: cs) :=
  @prepend _ _ [' '] (List.forall_mem_singleton.2 (by decide)) h

theorem lineBreak (depth : Nat) (h : TokensSpelledBy tokens cs) :
    TokensSpelledBy tokens (Layout.indented.lineBreak depth ++ cs) :=
  h.prepend fun _ => isSpace_of_mem_lineBreak

theorem empty : TokensSpelledBy [] [] :=
  nil (by simp)

/-- A word, and what comes behind it. -/
theorem word (hword : token.SpelledBy letters) (h : TokensSpelledBy tokens rest) :
    TokensSpelledBy (token :: tokens) (letters ++ rest) :=
  @cons _ _ [] _ _ (by simp) hword h

theorem append (h : TokensSpelledBy tokens cs) (hmore : TokensSpelledBy more rest) :
    TokensSpelledBy (tokens ++ more) (cs ++ rest) := by
  induction h with
  | nil hspaces => exact hmore.prepend hspaces
  | cons hspaces hword _ ih =>
    rw [List.append_assoc, List.append_assoc]
    exact .cons hspaces hword ih

end TokensSpelledBy

theorem spelledBy_quote (s : String) : (Token.string (some s)).SpelledBy (quote s) := by
  obtain ⟨word, hquote, hword⟩ := spelledBy_of_scan (scan_quote s [])
  rw [List.append_nil, List.append_nil] at hquote
  rw [hquote]
  exact hword

theorem spelledBy_quoteContent {content : Quotation} (h : content.isSome) :
    (Token.string content).SpelledBy (quoteContent content) := by
  obtain ⟨s, rfl⟩ := Option.isSome_iff_exists.1 h
  exact spelledBy_quote s

theorem spelledBy_text (n : Number.Numeral) : (Token.number n).SpelledBy n.text := by
  obtain ⟨word, htext, hword⟩ := spelledBy_of_scan (@scan_number n [] (by simp [NoNumberAhead]))
  rw [List.append_nil, List.append_nil] at htext
  rw [htext]
  exact hword

namespace Outline

open TokensSpelledBy (word empty)

/-! ## One line -/

mutual

/-- A value on one line. -/
theorem spelledBy_renderLine : ∀ value : Json, value.hasTexts →
    TokensSpelledBy value.tokens (renderLine value)
  | .null, _ => word .null empty
  | .bool true, _ => word .true empty
  | .bool false, _ => word .false empty
  | .number n, _ => by simpa [renderLine, tokens] using word (spelledBy_text n) empty
  | .string _, h => by simpa [renderLine, tokens] using word (spelledBy_quoteContent h) empty
  | .array [], _ => word .openBracket (word .closeBracket empty)
  | .array (item :: items), h => by
    obtain ⟨hitem, hitems⟩ : item.hasTexts ∧ itemsHaveTexts items := by
      simpa [hasTexts, itemsHaveTexts] using h
    -- what comes after the first item
    have hend := (spelledBy_lineItems items hitems).append (word .closeBracket empty)
    simpa [renderLine, tokens] using
      word .openBracket ((spelledBy_renderLine item hitem).append hend)
  | .object [], _ => word .openBrace (word .closeBrace empty)
  | .object ((name, value) :: members), h => by
    obtain ⟨⟨hname, hvalue⟩, hmembers⟩ :
        (name.isSome ∧ value.hasTexts) ∧ membersHaveTexts members := by
      simpa [hasTexts, membersHaveTexts] using h
    -- what comes after the first value
    have hend := (spelledBy_lineMembers members hmembers).append (word .closeBrace empty).space
    have hfirst := word .colon ((spelledBy_renderLine value hvalue).append hend).space
    simpa [renderLine, tokens] using
      word .openBrace (word (spelledBy_quoteContent hname) hfirst).space

/-- The items after the first on one line. -/
theorem spelledBy_lineItems : ∀ items : List Json, itemsHaveTexts items →
    TokensSpelledBy (itemTokens items) (lineItems items)
  | [], _ => empty
  | item :: items, h => by
    obtain ⟨hitem, hitems⟩ : item.hasTexts ∧ itemsHaveTexts items := by
      simpa [itemsHaveTexts] using h
    have hrest := spelledBy_lineItems items hitems
    simpa [lineItems, itemTokens] using
      word .comma ((spelledBy_renderLine item hitem).append hrest).space

/-- The members after the first on one line. -/
theorem spelledBy_lineMembers : ∀ members : List (Quotation × Json), membersHaveTexts members →
    TokensSpelledBy (memberTokens members) (lineMembers members)
  | [], _ => empty
  | (name, value) :: members, h => by
    obtain ⟨⟨hname, hvalue⟩, hmembers⟩ :
        (name.isSome ∧ value.hasTexts) ∧ membersHaveTexts members := by
      simpa [membersHaveTexts] using h
    have hrest := spelledBy_lineMembers members hmembers
    have hfirst := word .colon ((spelledBy_renderLine value hvalue).append hrest).space
    simpa [lineMembers, memberTokens] using
      word .comma (word (spelledBy_quoteContent hname) hfirst).space

end

/-! ## Many lines -/

mutual

/-- An outline, however deep it stands. -/
theorem spelledBy_render (depth : Nat) : ∀ o : Outline, o.value.hasTexts →
    TokensSpelledBy o.value.tokens (render depth o)
  | .line v, h => spelledBy_renderLine v h
  | .object [], _ => word .openBrace (word .closeBrace empty)
  | .object ((name, o) :: rest), h => by
    obtain ⟨hvalue, hmembers⟩ : o.value.hasTexts ∧ membersHaveTexts (memberValues rest) := by
      simpa [value, memberValues, hasTexts, membersHaveTexts] using h
    -- from the last brace backwards
    have hend := (spelledBy_renderMembers (depth + 1) rest hmembers).append
      ((word .closeBrace empty).lineBreak depth)
    have hfirst := word .colon ((spelledBy_render (depth + 1) o hvalue).append hend).space
    simpa [render, value, memberValues, tokens] using
      word .openBrace ((word (spelledBy_quote name) hfirst).lineBreak (depth + 1))
  | .array [], _ => word .openBracket (word .closeBracket empty)
  | .array (o :: rest), h => by
    obtain ⟨hitem, hitems⟩ : o.value.hasTexts ∧ itemsHaveTexts (itemValues rest) := by
      simpa [value, itemValues, hasTexts, itemsHaveTexts] using h
    have hend := (spelledBy_renderItems (depth + 1) rest hitems).append
      ((word .closeBracket empty).lineBreak depth)
    have hfirst := (spelledBy_render (depth + 1) o hitem).append hend
    simpa [render, value, itemValues, tokens] using
      word .openBracket (hfirst.lineBreak (depth + 1))

/-- The members after the first, each on a line. -/
theorem spelledBy_renderMembers (depth : Nat) : ∀ members : List (String × Outline),
    membersHaveTexts (memberValues members) →
      TokensSpelledBy (memberTokens (memberValues members)) (renderMembers depth members)
  | [], _ => empty
  | (name, o) :: rest, h => by
    obtain ⟨hvalue, hmembers⟩ : o.value.hasTexts ∧ membersHaveTexts (memberValues rest) := by
      simpa [memberValues, membersHaveTexts] using h
    have hrest := spelledBy_renderMembers depth rest hmembers
    have hfirst := word .colon ((spelledBy_render depth o hvalue).append hrest).space
    simpa [renderMembers, memberValues, memberTokens] using
      word .comma ((word (spelledBy_quote name) hfirst).lineBreak depth)

/-- The items after the first, each on a line. -/
theorem spelledBy_renderItems (depth : Nat) : ∀ items : List Outline,
    itemsHaveTexts (itemValues items) →
      TokensSpelledBy (itemTokens (itemValues items)) (renderItems depth items)
  | [], _ => empty
  | o :: rest, h => by
    obtain ⟨hitem, hitems⟩ : o.value.hasTexts ∧ itemsHaveTexts (itemValues rest) := by
      simpa [itemValues, itemsHaveTexts] using h
    have hrest := spelledBy_renderItems depth rest hitems
    have hfirst := (spelledBy_render depth o hitem).append hrest
    simpa [renderItems, itemValues, itemTokens] using word .comma (hfirst.lineBreak depth)

end

/-- The text of an outline spells its value. -/
theorem spelledBy_print {o : Outline} (h : o.value.hasTexts) :
    o.value.SpelledBy o.print.toList := by
  have hend : TokensSpelledBy [] ['\n'] := .nil (List.forall_mem_singleton.2 (by decide))
  have htext := (spelledBy_render 0 o h).append hend
  rw [List.append_nil] at htext
  rw [SpelledBy, print, String.toList_ofList]
  exact htext

end Outline
end BlockData.Json
