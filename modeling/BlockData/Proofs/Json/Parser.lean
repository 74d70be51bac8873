import BlockData.Json.Parser
import BlockData.Proofs.Json.Tokens

/-!
# Values are read as they are written

The tokens of a value lead the machine from a place for a value to the place after it, and
open as many arrays and objects at once as the value nests.  Hence the text of a value, in
either layout, is read as this value if a reader admits its depth, and not at all otherwise.

* `run_tokens` is the run over one value, `nestingFrom_tokens` the count;
* `parseWithin?_render` is the round trip of texts.
-/

namespace BlockData.Json

/-! ## Depth -/

mutual

/-- How deeply the arrays and objects of a value nest. -/
def depth : Json → Nat
  | .null | .bool _ | .number _ | .string _ => 0
  | .array items => itemsDepth items + 1
  | .object members => membersDepth members + 1

/-- The depth of the deepest item. -/
def itemsDepth : List Json → Nat
  | [] => 0
  | item :: items => max (depth item) (itemsDepth items)

/-- The depth of the deepest value of a member. -/
def membersDepth : List (Quotation × Json) → Nat
  | [] => 0
  | (_, value) :: members => max (depth value) (membersDepth members)

end

namespace Token

/-! ## Nesting -/

mutual

/-- The tokens of a value go as deep as the value does. -/
theorem nestingFrom_tokens {opened deepest : Nat} (h : opened ≤ deepest) (rest : List Token) :
    ∀ value : Json, nestingFrom opened deepest (value.tokens ++ rest) =
      nestingFrom opened (max deepest (opened + value.depth)) rest
  | .null | .bool _ | .number _ | .string _ => by
    have hsame : max deepest opened = deepest := Nat.max_eq_left h
    simp [tokens, nestingFrom, depth, hsame]
  | .array [] => by
    simp [tokens, nestingFrom, depth, itemsDepth]
  | .array (item :: items) => by
    -- the array itself is counted first, and `deepest` covers it from then on
    have hopened : opened + 1 ≤ max deepest (opened + 1) := Nat.le_max_right _ _
    have hitem : opened + 1 ≤ max (max deepest (opened + 1)) (opened + 1 + item.depth) := by omega
    simp only [tokens, List.cons_append, List.append_assoc, nestingFrom]
    rw [nestingFrom_tokens hopened _ item, nestingFrom_itemTokens hitem _ items]
    simp only [List.nil_append, nestingFrom, Nat.add_sub_cancel, depth, itemsDepth]
    congr 1
    omega
  | .object [] => by
    simp [tokens, nestingFrom, depth, membersDepth]
  | .object ((name, value) :: members) => by
    -- as for an array
    have hopened : opened + 1 ≤ max deepest (opened + 1) := Nat.le_max_right _ _
    have hvalue : opened + 1 ≤ max (max deepest (opened + 1)) (opened + 1 + value.depth) := by
      omega
    simp only [tokens, List.cons_append, List.append_assoc, nestingFrom]
    rw [nestingFrom_tokens hopened _ value, nestingFrom_memberTokens hvalue _ members]
    simp only [List.nil_append, nestingFrom, Nat.add_sub_cancel, depth, membersDepth]
    congr 1
    omega

theorem nestingFrom_itemTokens {opened deepest : Nat} (h : opened ≤ deepest)
    (rest : List Token) :
    ∀ items : List Json, nestingFrom opened deepest (itemTokens items ++ rest) =
      nestingFrom opened (max deepest (opened + itemsDepth items)) rest
  | [] => by
    have hsame : max deepest opened = deepest := Nat.max_eq_left h
    simp [itemTokens, itemsDepth, hsame]
  | item :: items => by
    have hitem : opened ≤ max deepest (opened + item.depth) := by omega
    simp only [itemTokens, List.cons_append, List.append_assoc, nestingFrom]
    rw [nestingFrom_tokens h _ item, nestingFrom_itemTokens hitem _ items]
    simp only [itemsDepth]
    congr 1
    omega

theorem nestingFrom_memberTokens {opened deepest : Nat} (h : opened ≤ deepest)
    (rest : List Token) :
    ∀ members : List (Quotation × Json),
      nestingFrom opened deepest (memberTokens members ++ rest) =
        nestingFrom opened (max deepest (opened + membersDepth members)) rest
  | [] => by
    have hsame : max deepest opened = deepest := Nat.max_eq_left h
    simp [memberTokens, membersDepth, hsame]
  | (name, value) :: members => by
    have hvalue : opened ≤ max deepest (opened + value.depth) := by omega
    simp only [memberTokens, List.cons_append, List.append_assoc, nestingFrom]
    rw [nestingFrom_tokens h _ value, nestingFrom_memberTokens hvalue _ members]
    simp only [membersDepth]
    congr 1
    omega

end

theorem nesting_tokens (value : Json) : nesting value.tokens = value.depth := by
  have hcount := nestingFrom_tokens (Nat.le_refl 0) [] value
  rw [List.append_nil] at hcount
  rw [nesting, hcount, nestingFrom, Nat.zero_add, Nat.zero_max]

end Token

/-! ## Parsing -/

namespace Parser

/-- No value begins with the end of an array, so that the first item is read as any value. -/
theorem run_firstItem (stack : List Frame) (value : Json) (rest : List Token) :
    run ⟨stack, .firstItem⟩ (value.tokens ++ rest) =
      run ⟨stack, .value⟩ (value.tokens ++ rest) := by
  cases value with
  | array items => cases items <;> rfl
  | object members => cases members <;> rfl
  | _ => rfl

mutual

/-- The tokens of a value lead to the place after it. -/
theorem run_tokens (stack : List Frame) (rest : List Token) :
    ∀ value : Json,
      run ⟨stack, .value⟩ (value.tokens ++ rest) = run ⟨stack, .afterValue value⟩ rest
  | .null | .bool _ | .number _ | .string _ => rfl
  | .array [] => rfl
  | .array (item :: items) => by
    -- the first item, the others, and the bracket that closes
    simp only [tokens, List.cons_append, List.append_assoc]
    calc run ⟨stack, .value⟩
          (.openBracket :: (item.tokens ++ (itemTokens items ++ .closeBracket :: rest)))
        = run ⟨.array [] :: stack, .firstItem⟩
            (item.tokens ++ (itemTokens items ++ .closeBracket :: rest)) := rfl
      _ = run ⟨.array [] :: stack, .afterValue item⟩
            (itemTokens items ++ .closeBracket :: rest) := by
          rw [run_firstItem, run_tokens (.array [] :: stack) _ item]
      _ = run ⟨stack, .afterValue (.array (item :: items))⟩ rest := by
          rw [run_itemTokens stack rest [] item items]
          rfl
  | .object [] => rfl
  | .object ((name, value) :: members) => by
    -- the first name and its value, the other members, and the brace
    simp only [tokens, List.cons_append, List.append_assoc]
    calc run ⟨stack, .value⟩ (.openBrace :: .string name :: .colon ::
          (value.tokens ++ (memberTokens members ++ .closeBrace :: rest)))
        = run ⟨.object [] name :: stack, .value⟩
            (value.tokens ++ (memberTokens members ++ .closeBrace :: rest)) := rfl
      _ = run ⟨.object [] name :: stack, .afterValue value⟩
            (memberTokens members ++ .closeBrace :: rest) := by
          rw [run_tokens (.object [] name :: stack) _ value]
      _ = run ⟨stack, .afterValue (.object ((name, value) :: members))⟩ rest := by
          rw [run_memberTokens stack rest [] name value members]
          rfl

/-- The tokens of more items, and the end of the array. -/
theorem run_itemTokens (stack : List Frame) (rest : List Token) :
    ∀ (done : List Json) (item : Json) (items : List Json),
      run ⟨.array done :: stack, .afterValue item⟩ (itemTokens items ++ .closeBracket :: rest) =
        run ⟨stack, .afterValue (.array (done.reverse ++ item :: items))⟩ rest
  | done, item, [] => by
    simp [itemTokens, run, step, afterValue]
  | done, item, next :: items => by
    simp only [itemTokens, List.cons_append, List.append_assoc]
    calc run ⟨.array done :: stack, .afterValue item⟩
          (.comma :: (next.tokens ++ (itemTokens items ++ .closeBracket :: rest)))
        = run ⟨.array (item :: done) :: stack, .value⟩
            (next.tokens ++ (itemTokens items ++ .closeBracket :: rest)) := rfl
      _ = run ⟨.array (item :: done) :: stack, .afterValue next⟩
            (itemTokens items ++ .closeBracket :: rest) := by
          rw [run_tokens (.array (item :: done) :: stack) _ next]
      _ = run ⟨stack, .afterValue (.array (done.reverse ++ item :: next :: items))⟩ rest := by
          rw [run_itemTokens stack rest (item :: done) next items]
          simp

/-- The tokens of more members, and the end of the object. -/
theorem run_memberTokens (stack : List Frame) (rest : List Token) :
    ∀ (done : List (Quotation × Json)) (name : Quotation) (value : Json)
      (members : List (Quotation × Json)),
      run ⟨.object done name :: stack, .afterValue value⟩
          (memberTokens members ++ .closeBrace :: rest) =
        run ⟨stack, .afterValue (.object (done.reverse ++ (name, value) :: members))⟩ rest
  | done, name, value, [] => by
    simp [memberTokens, run, step, afterValue]
  | done, name, value, (next, value') :: members => by
    -- the comma and the name, the value, and the other members
    simp only [memberTokens, List.cons_append, List.append_assoc]
    calc run ⟨.object done name :: stack, .afterValue value⟩ (.comma :: .string next :: .colon ::
          (value'.tokens ++ (memberTokens members ++ .closeBrace :: rest)))
        = run ⟨.object ((name, value) :: done) next :: stack, .value⟩
            (value'.tokens ++ (memberTokens members ++ .closeBrace :: rest)) := rfl
      _ = run ⟨.object ((name, value) :: done) next :: stack, .afterValue value'⟩
            (memberTokens members ++ .closeBrace :: rest) := by
          rw [run_tokens (.object ((name, value) :: done) next :: stack) _ value']
      _ = run ⟨stack, .afterValue
            (.object (done.reverse ++ (name, value) :: (next, value') :: members))⟩ rest := by
          rw [run_memberTokens stack rest ((name, value) :: done) next value' members]
          simp

end

end Parser

theorem ofTokens?_tokens (value : Json) : ofTokens? value.tokens = some value := by
  have hrun := Parser.run_tokens [] [] value
  rw [List.append_nil] at hrun
  rw [ofTokens?, Parser.State.start, hrun]
  rfl

/-- How deeply the arrays and objects of a text nest, if it consists of tokens. -/
def textNesting? (text : String) : Option Nat :=
  (Token.lex text.toList).map Token.nesting

/-- The text of a value nests as deep as the value. -/
theorem textNesting?_print (layout : Layout) {value : Json} (h : value.hasTexts) :
    textNesting? (value.print layout) = some value.depth := by
  have hlex := @Token.lex_render layout value h [] (by simp)
  rw [List.append_nil] at hlex
  rw [textNesting?, print, String.toList_ofList, hlex, Option.map_some, Token.nesting_tokens]

/-- The text of a value, with white space behind it, is read as the value if its depth is
within the limit, and is not read otherwise. -/
theorem parseWithin?_render (limit : Nat) (layout : Layout) {value : Json} (h : value.hasTexts)
    {ending : List Char} (hending : ∀ c ∈ ending, isSpace c) :
    parseWithin? limit (String.ofList (render layout 0 value ++ ending)) =
      if value.depth ≤ limit then some value else none := by
  rw [parseWithin?, String.toList_ofList, Token.lex_render layout h hending, Option.bind_some,
    Token.nesting_tokens, ofTokens?_tokens]

/-- The text of a value alone. -/
theorem parseWithin?_print (limit : Nat) (layout : Layout) {value : Json} (h : value.hasTexts) :
    parseWithin? limit (value.print layout) =
      if value.depth ≤ limit then some value else none := by
  have hread := @parseWithin?_render limit layout value h [] (by simp)
  rwa [List.append_nil] at hread

end BlockData.Json
