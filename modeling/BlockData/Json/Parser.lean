import BlockData.Json.Lexer

/-!
# From tokens to values

A value is built by a machine that takes one token at a time.  It keeps the arrays and
objects that are open, the innermost one in front, and what may come next.  Its stack
is data, so that texts of any nesting are read.

* `Parser.step` is one move;
* `parse` runs the machine over the tokens of a text.
-/

namespace BlockData.Json.Parser

/-- An array or object that is open, with what it holds so far, the latest in front. -/
inductive Frame where
  | array (items : List Json)
  /-- An object, and the name whose value is being read. -/
  | object (members : List (Quotation × Json)) (name : Quotation)
  deriving Repr

/-- What may come next. -/
inductive Expected where
  /-- A value. -/
  | value
  /-- A value or the end of the array just opened. -/
  | firstItem
  /-- A name or the end of the object just opened. -/
  | firstName
  /-- A name, after a comma and these members. -/
  | name (members : List (Quotation × Json))
  /-- The colon after a name. -/
  | colon (members : List (Quotation × Json)) (name : Quotation)
  /-- What follows a complete value. -/
  | afterValue (value : Json)
  deriving Repr

/-- The machine between two tokens. -/
structure State where
  stack : List Frame
  expected : Expected
  deriving Repr

/-- Nothing read yet. -/
def State.start : State := ⟨[], .value⟩

/-- The machine at the start of a value, for any token but a closing bracket. -/
def beginValue (stack : List Frame) : Token → Option State
  | .null => some ⟨stack, .afterValue .null⟩
  | .bool b => some ⟨stack, .afterValue (.bool b)⟩
  | .number n => some ⟨stack, .afterValue (.number n)⟩
  | .string s => some ⟨stack, .afterValue (.string s)⟩
  | .openBracket => some ⟨.array [] :: stack, .firstItem⟩
  | .openBrace => some ⟨stack, .firstName⟩
  | _ => none

/-- The machine after a complete value, whose place the innermost frame tells. -/
def afterValue (value : Json) : List Frame → Token → Option State
  | .array items :: stack, .comma => some ⟨.array (value :: items) :: stack, .value⟩
  | .array items :: stack, .closeBracket =>
    some ⟨stack, .afterValue (.array (value :: items).reverse)⟩
  | .object members name :: stack, .comma => some ⟨stack, .name ((name, value) :: members)⟩
  | .object members name :: stack, .closeBrace =>
    some ⟨stack, .afterValue (.object ((name, value) :: members).reverse)⟩
  | _, _ => none

/-- One move of the machine, or nothing if the token may not stand there. -/
def step (state : State) (token : Token) : Option State :=
  match state.expected, token with
  | .value, token => beginValue state.stack token
  | .firstItem, .closeBracket => some ⟨state.stack.tail, .afterValue (.array [])⟩
  | .firstItem, token => beginValue state.stack token
  | .firstName, .closeBrace => some ⟨state.stack, .afterValue (.object [])⟩
  | .firstName, .string name => some ⟨state.stack, .colon [] name⟩
  | .name members, .string name => some ⟨state.stack, .colon members name⟩
  | .colon members name, .colon => some ⟨.object members name :: state.stack, .value⟩
  | .afterValue value, token => afterValue value state.stack token
  | _, _ => none

/-- Run the machine. -/
def run (state : State) : List Token → Option State
  | [] => some state
  | token :: rest =>
    match step state token with
    | none => none
    | some state => run state rest

/-- The value that the machine has completed, if nothing is open. -/
def State.result? : State → Option Json
  | ⟨[], .afterValue value⟩ => some value
  | _ => none

theorem run_append (state : State) (first second : List Token) :
    run state (first ++ second) = (run state first).bind (run · second) := by
  induction first generalizing state with
  | nil => rfl
  | cons token rest ih =>
    simp only [List.cons_append, run]
    cases step state token with
    | none => rfl
    | some next => exact ih next

end BlockData.Json.Parser

namespace BlockData.Json

/-- The value that tokens write. -/
def ofTokens? (tokens : List Token) : Option Json :=
  (Parser.run .start tokens).bind Parser.State.result?

/-- The value that a text writes. -/
def parse? (text : String) : Option Json :=
  (Token.lex text.toList).bind ofTokens?

/-- The value that a text writes, if its arrays and objects nest no deeper than `limit`. -/
def parseWithin? (limit : Nat) (text : String) : Option Json :=
  (Token.lex text.toList).bind fun tokens =>
    if Token.nesting tokens ≤ limit then ofTokens? tokens else none

end BlockData.Json
