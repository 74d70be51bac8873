import BlockData.Json.Lexer
import BlockData.Json.Printer
import BlockData.Proofs.Json.Number
import BlockData.Proofs.Json.Quote

/-!
# The tokens of a value

The text of a value is cut into the tokens of the value, in whatever layout it is written
and whatever follows it, as long as this does not continue a number: `lexAfter_render`.
-/

namespace BlockData.Json

/-! ## Values and their tokens -/

mutual

/-- All strings and names of a value have a text. -/
def hasTexts : Json → Bool
  | .null | .bool _ | .number _ => true
  | .string content => content.isSome
  | .array items => itemsHaveTexts items
  | .object members => membersHaveTexts members

/-- All strings and names of items have a text. -/
def itemsHaveTexts : List Json → Bool
  | [] => true
  | item :: items => hasTexts item && itemsHaveTexts items

/-- All strings and names of members have a text. -/
def membersHaveTexts : List (Quotation × Json) → Bool
  | [] => true
  | (name, value) :: members => name.isSome && hasTexts value && membersHaveTexts members

end

mutual

/-- The tokens that a value is written with. -/
def tokens : Json → List Token
  | .null => [.null]
  | .bool b => [.bool b]
  | .number n => [.number n]
  | .string content => [.string content]
  | .array [] => [.openBracket, .closeBracket]
  | .array (item :: items) => .openBracket :: (tokens item ++ (itemTokens items ++ [.closeBracket]))
  | .object [] => [.openBrace, .closeBrace]
  | .object ((name, value) :: members) =>
    .openBrace :: .string name :: .colon ::
      (tokens value ++ (memberTokens members ++ [.closeBrace]))

/-- The tokens of the items after the first. -/
def itemTokens : List Json → List Token
  | [] => []
  | item :: items => .comma :: (tokens item ++ itemTokens items)

/-- The tokens of the members after the first. -/
def memberTokens : List (Quotation × Json) → List Token
  | [] => []
  | (name, value) :: members =>
    .comma :: .string name :: .colon :: (tokens value ++ memberTokens members)

end

/-! ## White space -/

theorem eq_of_isSpace {c : Char} (h : isSpace c) :
    c = ' ' ∨ c = '\t' ∨ c = '\n' ∨ c = '\r' := by
  simpa [isSpace, or_assoc] using h

theorem isSpace_of_mem_lineBreak {layout : Layout} {depth : Nat} {c : Char}
    (h : c ∈ layout.lineBreak depth) : isSpace c := by
  cases layout with
  | compact => simp [Layout.lineBreak] at h
  | indented =>
    rcases List.mem_cons.1 h with rfl | hspaces
    · decide
    · rw [List.eq_of_mem_replicate hspaces]
      decide

theorem isSpace_of_mem_colonSpace {layout : Layout} {c : Char} (h : c ∈ layout.colonSpace) :
    isSpace c := by
  cases layout with
  | compact => simp [Layout.colonSpace] at h
  | indented =>
    rw [List.mem_singleton.1 h]
    decide

/-- No token begins with white space. -/
theorem scan_eq_none_of_isSpace {c : Char} (h : isSpace c) (rest : List Char) :
    Token.scan (c :: rest) = none := by
  rcases eq_of_isSpace h with rfl | rfl | rfl | rfl
  all_goals rfl

/-! ## What may follow a number -/

theorem noNumberAhead_cons {c : Char}
    (h : digit? c = none ∧ c ≠ '.' ∧ c ≠ 'e' ∧ c ≠ 'E') (rest : List Char) :
    NoNumberAhead (c :: rest) := by
  intro x hx
  obtain rfl := Option.some.inj hx
  exact h

theorem noNumberAhead_lineBreak (layout : Layout) (depth : Nat) {rest : List Char}
    (h : NoNumberAhead rest) : NoNumberAhead (layout.lineBreak depth ++ rest) := by
  cases layout with
  | compact => exact h
  | indented => exact noNumberAhead_cons (by decide) _

theorem noNumberAhead_renderItems (layout : Layout) (depth : Nat) (items : List Json)
    {rest : List Char} (h : NoNumberAhead rest) :
    NoNumberAhead (renderItems layout depth items ++ rest) := by
  cases items with
  | nil => simpa [renderItems] using h
  | cons item items =>
    rw [renderItems]
    exact noNumberAhead_cons (by decide) _

theorem noNumberAhead_renderMembers (layout : Layout) (depth : Nat)
    (members : List (Quotation × Json)) {rest : List Char} (h : NoNumberAhead rest) :
    NoNumberAhead (renderMembers layout depth members ++ rest) := by
  cases members with
  | nil => simpa [renderMembers] using h
  | cons member members =>
    rw [renderMembers]
    exact noNumberAhead_cons (by decide) _

/-! ## Cutting texts into tokens -/

namespace Token

theorem scan_openBracket (rest : List Char) : scan ('[' :: rest) = some (.openBracket, rest) := rfl

theorem scan_closeBracket (rest : List Char) : scan (']' :: rest) = some (.closeBracket, rest) :=
  rfl

theorem scan_openBrace (rest : List Char) : scan ('\x7b' :: rest) = some (.openBrace, rest) := rfl

theorem scan_closeBrace (rest : List Char) : scan ('\x7d' :: rest) = some (.closeBrace, rest) :=
  rfl

theorem scan_comma (rest : List Char) : scan (',' :: rest) = some (.comma, rest) := rfl

theorem scan_colon (rest : List Char) : scan (':' :: rest) = some (.colon, rest) := rfl

/-- White space is passed over. -/
theorem lexAfter_spaces {spaces : List Char} (h : ∀ c ∈ spaces, isSpace c)
    (found : List Token) (rest : List Char) :
    lexAfter found (spaces ++ rest) = lexAfter found rest := by
  induction spaces with
  | nil => rfl
  | cons c spaces ih =>
    rcases List.forall_mem_cons.1 h with ⟨hc, hspaces⟩
    rw [List.cons_append, lexAfter, if_pos hc]
    exact ih hspaces

theorem lexAfter_lineBreak (layout : Layout) (depth : Nat) (found : List Token)
    (rest : List Char) : lexAfter found (layout.lineBreak depth ++ rest) = lexAfter found rest :=
  lexAfter_spaces (fun _ => isSpace_of_mem_lineBreak) found rest

/-- A token is taken off. -/
theorem lexAfter_of_scan {cs rest : List Char} {token : Token} (h : scan cs = some (token, rest))
    (found : List Token) : lexAfter found cs = lexAfter (token :: found) rest := by
  cases cs with
  | nil => simp [scan, scanNumber, scanWhole, scanDigits] at h
  | cons c cs =>
    -- white space begins no token
    have hspace : ¬ isSpace c := by
      intro hc
      simp [scan_eq_none_of_isSpace hc] at h
    rw [lexAfter, if_neg hspace]
    split
    · next hnone => simp [h] at hnone
    · next heq =>
      rw [h] at heq
      rcases Prod.mk.inj (Option.some.inj heq) with ⟨rfl, rfl⟩
      rfl

theorem lexAfter_quoteContent {content : Quotation} (h : content.isSome) (found : List Token)
    (rest : List Char) :
    lexAfter found (quoteContent content ++ rest) = lexAfter (.string content :: found) rest := by
  rcases Option.isSome_iff_exists.1 h with ⟨s, rfl⟩
  exact lexAfter_of_scan (scan_quote s rest) found

/-- The name of a member, with its colon and the white space of the layout. -/
theorem lexAfter_name (layout : Layout) {name : Quotation} (h : name.isSome)
    (found : List Token) (rest : List Char) :
    lexAfter found (quoteContent name ++ ':' :: (layout.colonSpace ++ rest)) =
      lexAfter (.colon :: .string name :: found) rest := by
  rw [lexAfter_quoteContent h, lexAfter_of_scan (scan_colon _),
    lexAfter_spaces fun _ => isSpace_of_mem_colonSpace]

mutual

/-- The text of a value is cut into its tokens. -/
theorem lexAfter_render (layout : Layout) (depth : Nat) (found : List Token) :
    ∀ value : Json, value.hasTexts → ∀ {rest : List Char}, NoNumberAhead rest →
      lexAfter found (render layout depth value ++ rest) =
        lexAfter (value.tokens.reverse ++ found) rest
  | .null, _, _, _ => lexAfter_of_scan rfl found
  | .bool true, _, _, _ => lexAfter_of_scan rfl found
  | .bool false, _, _, _ => lexAfter_of_scan rfl found
  | .number n, _, _, hrest => lexAfter_of_scan (scan_number n hrest) found
  | .string _, h, rest, _ => lexAfter_quoteContent h found rest
  | .array [], _, rest, _ => by
    simp only [render, List.cons_append, List.nil_append]
    rw [lexAfter_of_scan (scan_openBracket _), lexAfter_of_scan (scan_closeBracket _)]
    rfl
  | .array (item :: items), h, rest, _ => by
    obtain ⟨hitem, hitems⟩ : item.hasTexts ∧ itemsHaveTexts items := by
      simpa [hasTexts, itemsHaveTexts] using h
    -- the last item is followed by a bracket or a line break, the others by a comma
    have hend : NoNumberAhead (layout.lineBreak depth ++ ']' :: rest) :=
      noNumberAhead_lineBreak layout depth (noNumberAhead_cons (by decide) rest)
    have hnext := noNumberAhead_renderItems layout (depth + 1) items hend
    simp only [render, List.cons_append, List.append_assoc, List.nil_append]
    rw [lexAfter_of_scan (scan_openBracket _), lexAfter_lineBreak,
      lexAfter_render layout (depth + 1) _ item hitem hnext,
      lexAfter_renderItems layout (depth + 1) _ items hitems hend, lexAfter_lineBreak,
      lexAfter_of_scan (scan_closeBracket _)]
    simp [tokens]
  | .object [], _, rest, _ => by
    simp only [render, List.cons_append, List.nil_append]
    rw [lexAfter_of_scan (scan_openBrace _), lexAfter_of_scan (scan_closeBrace _)]
    rfl
  | .object ((name, value) :: members), h, rest, _ => by
    obtain ⟨⟨hname, hvalue⟩, hmembers⟩ :
        (name.isSome ∧ value.hasTexts) ∧ membersHaveTexts members := by
      simpa [hasTexts, membersHaveTexts] using h
    -- the last member is followed by a brace or a line break, the others by a comma
    have hend : NoNumberAhead (layout.lineBreak depth ++ '\x7d' :: rest) :=
      noNumberAhead_lineBreak layout depth (noNumberAhead_cons (by decide) rest)
    have hnext := noNumberAhead_renderMembers layout (depth + 1) members hend
    simp only [render, List.cons_append, List.append_assoc, List.nil_append]
    rw [lexAfter_of_scan (scan_openBrace _), lexAfter_lineBreak, lexAfter_name layout hname,
      lexAfter_render layout (depth + 1) _ value hvalue hnext,
      lexAfter_renderMembers layout (depth + 1) _ members hmembers hend, lexAfter_lineBreak,
      lexAfter_of_scan (scan_closeBrace _)]
    simp [tokens]

/-- The text of the items after the first is cut into their tokens. -/
theorem lexAfter_renderItems (layout : Layout) (depth : Nat) (found : List Token) :
    ∀ items : List Json, itemsHaveTexts items → ∀ {rest : List Char}, NoNumberAhead rest →
      lexAfter found (renderItems layout depth items ++ rest) =
        lexAfter ((itemTokens items).reverse ++ found) rest
  | [], _, _, _ => rfl
  | item :: items, h, rest, hrest => by
    obtain ⟨hitem, hitems⟩ : item.hasTexts ∧ itemsHaveTexts items := by
      simpa [itemsHaveTexts] using h
    have hnext := noNumberAhead_renderItems layout depth items hrest
    simp only [renderItems, List.cons_append, List.append_assoc]
    rw [lexAfter_of_scan (scan_comma _), lexAfter_lineBreak,
      lexAfter_render layout depth _ item hitem hnext,
      lexAfter_renderItems layout depth _ items hitems hrest]
    simp [itemTokens]

/-- The text of the members after the first is cut into their tokens. -/
theorem lexAfter_renderMembers (layout : Layout) (depth : Nat) (found : List Token) :
    ∀ members : List (Quotation × Json), membersHaveTexts members →
      ∀ {rest : List Char}, NoNumberAhead rest →
        lexAfter found (renderMembers layout depth members ++ rest) =
          lexAfter ((memberTokens members).reverse ++ found) rest
  | [], _, _, _ => rfl
  | (name, value) :: members, h, rest, hrest => by
    obtain ⟨⟨hname, hvalue⟩, hmembers⟩ :
        (name.isSome ∧ value.hasTexts) ∧ membersHaveTexts members := by
      simpa [membersHaveTexts] using h
    have hnext := noNumberAhead_renderMembers layout depth members hrest
    simp only [renderMembers, List.cons_append, List.append_assoc]
    rw [lexAfter_of_scan (scan_comma _), lexAfter_lineBreak, lexAfter_name layout hname,
      lexAfter_render layout depth _ value hvalue hnext,
      lexAfter_renderMembers layout depth _ members hmembers hrest]
    simp [memberTokens]

end

/-- The text of a value, with white space behind it, has the tokens of the value. -/
theorem lex_render (layout : Layout) {value : Json} (h : value.hasTexts) {ending : List Char}
    (hending : ∀ c ∈ ending, isSpace c) :
    lex (render layout 0 value ++ ending) = some value.tokens := by
  have hrest : NoNumberAhead ending := by
    intro c hc
    rcases eq_of_isSpace (hending c (List.mem_of_mem_head? hc)) with rfl | rfl | rfl | rfl
    all_goals decide
  have hend : lexAfter value.tokens.reverse ending = some value.tokens := by
    have hspaces := lexAfter_spaces hending value.tokens.reverse []
    rw [List.append_nil] at hspaces
    rw [hspaces, lexAfter, List.reverse_reverse]
  rw [lex, lexAfter_render layout 0 [] value h hrest, List.append_nil, hend]

end Token
end BlockData.Json
