import BlockData.Proofs.Json.Parser

/-!
# What the machine has read

A state of the machine keeps all it has read: `State.tokens` writes the tokens down again,
those of the frames first, from the outermost one inwards.  One move adds its token to them
(`step_tokens`), and so does a run with all of its tokens (`tokens_of_run`).  Hence only the
tokens of a value are read as it, and a reader with a limit gives values within the limit.
-/

namespace BlockData.Json

/-! ## Values in parts -/

/-- The tokens of items, the latest in front, each with the comma after it. -/
@[simp] def itemsBefore : List Json → List Token
  | [] => []
  | item :: items => itemsBefore items ++ (item.tokens ++ [.comma])

/-- The tokens of members, the latest in front, each with the comma after it. -/
@[simp] def membersBefore : List (Quotation × Json) → List Token
  | [] => []
  | (name, value) :: members =>
    membersBefore members ++ (.string name :: .colon :: (value.tokens ++ [.comma]))

/-- An array from an item in its middle. -/
theorem tokens_array (done : List Json) (item : Json) (items : List Json) :
    (Json.array (done.reverse ++ item :: items)).tokens =
      .openBracket ::
        (itemsBefore done ++ (item.tokens ++ (itemTokens items ++ [.closeBracket]))) := by
  induction done generalizing item items with
  | nil => rfl
  | cons last done ih =>
    have hmoved := ih last (item :: items)
    simpa [itemTokens] using hmoved

/-- An object from a member in its middle. -/
theorem tokens_object (done : List (Quotation × Json)) (name : Quotation) (value : Json)
    (members : List (Quotation × Json)) :
    (Json.object (done.reverse ++ (name, value) :: members)).tokens =
      .openBrace :: (membersBefore done ++
        (.string name :: .colon ::
          (value.tokens ++ (memberTokens members ++ [.closeBrace])))) := by
  induction done generalizing name value members with
  | nil => rfl
  | cons last done ih =>
    have hmoved := ih last.1 last.2 ((name, value) :: members)
    simpa [memberTokens] using hmoved

namespace Parser

/-! ## What a state has read -/

/-- The tokens of an open array or object up to the value that is being read. -/
@[simp] def Frame.tokens : Frame → List Token
  | .array items => .openBracket :: itemsBefore items
  | .object members key => .openBrace :: (membersBefore members ++ [.string key, .colon])

/-- The tokens of frames, the outermost first. -/
@[simp] def stackTokens : List Frame → List Token
  | [] => []
  | frame :: outer => stackTokens outer ++ frame.tokens

/-- The tokens that were read after those of the frames. -/
@[simp] def Expected.tokens : Expected → List Token
  | .value | .firstItem => []
  | .firstName => [.openBrace]
  | .name members => .openBrace :: membersBefore members
  | .colon members key => .openBrace :: (membersBefore members ++ [.string key])
  | .afterValue found => found.tokens

/-- The tokens that lead to a state. -/
@[simp] def State.tokens (state : State) : List Token :=
  stackTokens state.stack ++ state.expected.tokens

/-- A first item may come only where an array without items is open. -/
def State.Opened (state : State) : Prop :=
  state.expected = .firstItem → ∃ outer, state.stack = .array [] :: outer

theorem beginValue_tokens {stack : List Frame} {token : Token} {next : State}
    (h : beginValue stack token = some next) :
    next.tokens = stackTokens stack ++ [token] ∧ next.Opened := by
  unfold beginValue at h
  split at h
  case h_7 => simp at h
  all_goals
    obtain rfl := Option.some.inj h
    simp [State.Opened, Json.tokens]

theorem afterValue_tokens {value : Json} {stack : List Frame} {token : Token} {next : State}
    (h : afterValue value stack token = some next) :
    next.tokens = stackTokens stack ++ (value.tokens ++ [token]) ∧ next.Opened := by
  unfold afterValue at h
  split at h
  · next items outer =>
    obtain rfl := Option.some.inj h
    simp [State.Opened]
  · next items outer =>
    obtain rfl := Option.some.inj h
    have hwhole := tokens_array items value []
    simp [State.Opened, hwhole, itemTokens]
  · next members name outer =>
    obtain rfl := Option.some.inj h
    simp [State.Opened]
  · next members name outer =>
    obtain rfl := Option.some.inj h
    have hwhole := tokens_object members name value []
    simp [State.Opened, hwhole, memberTokens]
  · simp at h

/-- A move adds its token to those that were read. -/
theorem step_tokens {state next : State} {token : Token} (hopened : state.Opened)
    (h : step state token = some next) :
    next.tokens = state.tokens ++ [token] ∧ next.Opened := by
  rcases state with ⟨stack, expected⟩
  cases expected with
  | value => simpa using beginValue_tokens h
  | firstItem =>
    -- a bracket closes the array that is on top, any other token begins its first item
    obtain ⟨outer, rfl⟩ : ∃ outer, stack = .array [] :: outer := hopened rfl
    by_cases hclose : token = .closeBracket
    · subst hclose
      obtain rfl := Option.some.inj h
      simp [State.Opened, Json.tokens]
    · have hbegin : beginValue (.array [] :: outer) token = some next := by
        rw [← h]
        cases token <;> first | rfl | exact absurd rfl hclose
      simpa using beginValue_tokens hbegin
  | firstName =>
    cases token
    case closeBrace =>
      obtain rfl := Option.some.inj h
      simp [State.Opened, Json.tokens]
    case string name =>
      obtain rfl := Option.some.inj h
      simp [State.Opened]
    all_goals simp [step] at h
  | name members =>
    cases token
    case string name =>
      obtain rfl := Option.some.inj h
      simp [State.Opened]
    all_goals simp [step] at h
  | colon members name =>
    cases token
    case colon =>
      obtain rfl := Option.some.inj h
      simp [State.Opened]
    all_goals simp [step] at h
  | afterValue value => simpa using afterValue_tokens h

/-- A run adds its tokens to those that were read. -/
theorem tokens_of_run {state last : State} {tokens : List Token} (hopened : state.Opened)
    (h : run state tokens = some last) : last.tokens = state.tokens ++ tokens := by
  induction tokens generalizing state with
  | nil =>
    obtain rfl := Option.some.inj h
    exact (List.append_nil _).symm
  | cons token rest ih =>
    rw [run] at h
    split at h
    · simp at h
    · next next hstep =>
      obtain ⟨htokens, hopened'⟩ := step_tokens hopened hstep
      rw [ih hopened' h, htokens, List.append_assoc, List.singleton_append]

theorem State.opened_start : State.start.Opened := by
  simp [State.Opened, State.start]

end Parser

/-! ## Values that are read -/

/-- Tokens are read as a value exactly if they are its tokens. -/
theorem ofTokens?_eq_some_iff {tokens : List Token} {value : Json} :
    ofTokens? tokens = some value ↔ tokens = value.tokens := by
  constructor
  · intro h
    rcases Option.bind_eq_some_iff.1 h with ⟨last, hrun, hresult⟩
    have htokens := Parser.tokens_of_run Parser.State.opened_start hrun
    unfold Parser.State.result? at hresult
    split at hresult
    · next found =>
      obtain rfl := Option.some.inj hresult
      simpa [Parser.State.start] using htokens.symm
    · simp at hresult
  · rintro rfl
    exact ofTokens?_tokens value

/-- A reader with a limit gives values within the limit. -/
theorem depth_le_of_parseWithin? {limit : Nat} {text : String} {value : Json}
    (h : parseWithin? limit text = some value) : value.depth ≤ limit := by
  rcases Option.bind_eq_some_iff.1 h with ⟨tokens, -, hvalue⟩
  split at hvalue
  · next hnesting =>
    rwa [ofTokens?_eq_some_iff.1 hvalue, Token.nesting_tokens] at hnesting
  · simp at hvalue

end BlockData.Json
