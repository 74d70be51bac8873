import BlockData.Proofs.Json.Machine

/-!
# How a text spells a value

A grammar of JSON texts: which words spell a token, with every choice that a text has, and
which texts spell a list of tokens, with white space wherever it may stand.  A word is read as
its token whatever follows, as long as a number is not continued, and what is read as a token
is one of its words.  Hence a text is read as a value exactly if it spells the value
(`parse?_eq_some_iff`).
-/

namespace BlockData.Json

open Number (Numeral Digit)

/-! ## Words -/

/-- How one piece of a string may stand between quotes. -/
inductive Piece.SpelledBy : Piece → List Char → Prop where
  /-- A character as it is. -/
  | plain {c : Char} (hquote : c ≠ '"') (hslash : c ≠ '\\') (hcontrol : ¬ c.toNat < 0x20) :
      SpelledBy (.char c) [c]
  /-- A character by the letter for it. -/
  | letter {letter c : Char} (h : shortEscape? letter = some c) :
      SpelledBy (.char c) ['\\', letter]
  /-- A character, or half of one, by its code. -/
  | code {a b c d : Char} {code : Nat} (h : hexCode? a b c d = some code) :
      SpelledBy (.ofCode code) ['\\', 'u', a, b, c, d]

/-- How pieces may stand between quotes, one after the other. -/
inductive PiecesSpelledBy : List Piece → List Char → Prop where
  | nil : PiecesSpelledBy [] []
  | cons {piece : Piece} {pieces : List Piece} {word rest : List Char}
      (hpiece : piece.SpelledBy word) (hrest : PiecesSpelledBy pieces rest) :
      PiecesSpelledBy (piece :: pieces) (word ++ rest)

/-- How the whole part of a number may be spelled: it has no leading zero. -/
inductive WholeSpelledBy : Nat → List Char → Prop where
  | digits {first : Digit} {digits : List Digit} (h : digits = [] ∨ first.val ≠ 0) :
      WholeSpelledBy (Number.ofDigits (first :: digits)) ((first :: digits).map Digit.char)

/-- How an exponent may be spelled: with either letter, leading zeros and a sign or none. -/
inductive ExponentSpelledBy : Option Int → List Char → Prop where
  | none : ExponentSpelledBy none []
  | unsigned {letter : Char} {digits : List Digit} (hletter : letter = 'e' ∨ letter = 'E')
      (hdigits : digits ≠ []) :
      ExponentSpelledBy (some (Number.ofDigits digits)) (letter :: digits.map Digit.char)
  | positive {letter : Char} {digits : List Digit} (hletter : letter = 'e' ∨ letter = 'E')
      (hdigits : digits ≠ []) :
      ExponentSpelledBy (some (Number.ofDigits digits)) (letter :: '+' :: digits.map Digit.char)
  | negative {letter : Char} {digits : List Digit} (hletter : letter = 'e' ∨ letter = 'E')
      (hdigits : digits ≠ []) :
      ExponentSpelledBy (some (-(Number.ofDigits digits : Int)))
        (letter :: '-' :: digits.map Digit.char)

/-- How a number may be spelled after its sign. -/
inductive NumberSpelledBy (n : Numeral) : List Char → Prop where
  | parts {whole exponent : List Char} (hwhole : WholeSpelledBy n.whole whole)
      (hexponent : ExponentSpelledBy n.exponent exponent) :
      NumberSpelledBy n (whole ++ (fractionText n.fraction ++ exponent))

/-- The words that spell a token. -/
inductive Token.SpelledBy : Token → List Char → Prop where
  | openBrace : SpelledBy .openBrace ['\x7b']
  | closeBrace : SpelledBy .closeBrace ['\x7d']
  | openBracket : SpelledBy .openBracket ['[']
  | closeBracket : SpelledBy .closeBracket [']']
  | comma : SpelledBy .comma [',']
  | colon : SpelledBy .colon [':']
  | null : SpelledBy .null ['n', 'u', 'l', 'l']
  | true : SpelledBy (.bool true) ['t', 'r', 'u', 'e']
  | false : SpelledBy (.bool false) ['f', 'a', 'l', 's', 'e']
  | positive {n : Numeral} {word : List Char} (hsign : n.negative = Bool.false)
      (h : NumberSpelledBy n word) : SpelledBy (.number n) word
  | negative {n : Numeral} {word : List Char} (hsign : n.negative = Bool.true)
      (h : NumberSpelledBy n word) : SpelledBy (.number n) ('-' :: word)
  /-- A string whose surrogates do not pair stands for no text. -/
  | string {pieces : List Piece} {word : List Char} (h : PiecesSpelledBy pieces word) :
      SpelledBy (.string ((joinPieces pieces).map String.ofList)) ('"' :: (word ++ ['"']))

/-- The texts that spell tokens: a word for each, and white space before, between and behind
them. -/
inductive TokensSpelledBy : List Token → List Char → Prop where
  | nil {spaces : List Char} (hspaces : ∀ c ∈ spaces, isSpace c) : TokensSpelledBy [] spaces
  | cons {token : Token} {tokens : List Token} {spaces word rest : List Char}
      (hspaces : ∀ c ∈ spaces, isSpace c) (hword : token.SpelledBy word)
      (hrest : TokensSpelledBy tokens rest) :
      TokensSpelledBy (token :: tokens) (spaces ++ (word ++ rest))

/-- The texts that spell a value. -/
def SpelledBy (value : Json) (cs : List Char) : Prop :=
  TokensSpelledBy value.tokens cs

/-! ## Words are read as their tokens -/

theorem scanPieces_of_spelledBy {piece : Piece} {word : List Char} (h : piece.SpelledBy word)
    (done : List Piece) (rest : List Char) :
    scanPieces done (word ++ rest) = scanPieces (piece :: done) rest := by
  cases h with
  | plain hquote hslash hcontrol => exact scanPieces_plain hquote hslash hcontrol done rest
  | @letter letter c h =>
    -- the letter for a code is none for a character
    have hletter : letter ≠ 'u' := by
      rintro rfl
      simp [shortEscape?] at h
    simp only [List.cons_append, List.nil_append]
    rw [scanPieces]
    · simp [h]
    · intro a b c d tail hlong
      exact absurd hlong hletter
  | code h =>
    simp only [List.cons_append, List.nil_append]
    rw [scanPieces, h]

/-- The pieces of a string are read up to its closing quote. -/
theorem scanPieces_of_piecesSpelledBy {pieces : List Piece} {word : List Char}
    (h : PiecesSpelledBy pieces word) (done : List Piece) (rest : List Char) :
    scanPieces done (word ++ '"' :: rest) = some (done.reverse ++ pieces, rest) := by
  induction h generalizing done with
  | nil => simp [scanPieces]
  | cons hpiece _ ih =>
    rw [List.append_assoc, scanPieces_of_spelledBy hpiece, ih]
    simp

theorem scanWhole_of_spelledBy {n : Nat} {word rest : List Char} (h : WholeSpelledBy n word)
    (hrest : NoDigitAhead rest) : scanWhole (word ++ rest) = some (n, rest) := by
  cases h with
  | @digits first digits h =>
    unfold scanWhole
    rw [scanDigits_append _ hrest]
    cases digits with
    | nil => simp [Number.ofDigits]
    | cons second digits =>
      have hfirst : first.val ≠ 0 := h.resolve_left (by simp)
      simp [hfirst]

theorem scanExponentDigits_append (negative : Bool) {digits : List Digit} (hdigits : digits ≠ [])
    {rest : List Char} (hrest : NoDigitAhead rest) :
    scanExponentDigits negative (digits.map Digit.char ++ rest) =
      some (some (if negative then -(Number.ofDigits digits : Int) else Number.ofDigits digits),
        rest) := by
  obtain ⟨first, more, rfl⟩ := List.exists_cons_of_ne_nil hdigits
  unfold scanExponentDigits
  rw [scanDigits_append _ hrest]

/-- A digit is no sign. -/
theorem char_ne_sign (d : Digit) : d.char ≠ '+' ∧ d.char ≠ '-' := by
  revert d
  decide

theorem scanExponent_of_spelledBy {exponent : Option Int} {word rest : List Char}
    (h : ExponentSpelledBy exponent word) (hrest : NoNumberAhead rest) :
    scanExponent (word ++ rest) = some (exponent, rest) := by
  cases h with
  | none => exact scanExponent_exponentText none hrest
  | @unsigned letter digits hletter hdigits =>
    have hscan := scanExponentDigits_append false hdigits hrest.noDigitAhead
    -- a digit is not taken for a sign
    obtain ⟨first, more, rfl⟩ := List.exists_cons_of_ne_nil hdigits
    obtain ⟨hplus, hminus⟩ := char_ne_sign first
    rw [List.cons_append, scanExponent, if_pos hletter]
    · simpa using hscan
    · intro tail heq
      exact absurd (List.cons.inj heq).1 hplus
    · intro tail heq
      exact absurd (List.cons.inj heq).1 hminus
  | @positive letter digits hletter hdigits =>
    have hscan := scanExponentDigits_append false hdigits hrest.noDigitAhead
    rw [List.cons_append, List.cons_append, scanExponent, if_pos hletter]
    simpa using hscan
  | @negative letter digits hletter hdigits =>
    have hscan := scanExponentDigits_append true hdigits hrest.noDigitAhead
    rw [List.cons_append, List.cons_append, scanExponent, if_pos hletter]
    simpa using hscan

/-- What follows a fraction does not continue it. -/
theorem noDigitAhead_of_exponentSpelledBy {exponent : Option Int} {word rest : List Char}
    (h : ExponentSpelledBy exponent word) (hrest : NoNumberAhead rest) :
    NoDigitAhead (word ++ rest) ∧ (word ++ rest).head? ≠ some '.' := by
  cases h with
  | none => exact ⟨hrest.noDigitAhead, fun hpoint => (hrest '.' hpoint).2.1 rfl⟩
  | unsigned hletter _ | positive hletter _ | negative hletter _ =>
    rcases hletter with rfl | rfl
    · exact ⟨noDigitAhead_cons (by decide) _, by simp⟩
    · exact ⟨noDigitAhead_cons (by decide) _, by simp⟩

theorem scanNumber_of_spelledBy {n : Numeral} {word rest : List Char} (h : NumberSpelledBy n word)
    (hrest : NoNumberAhead rest) : scanNumber n.negative (word ++ rest) = some (n, rest) := by
  cases h with
  | @parts whole exponent hwhole hexponent =>
    obtain ⟨hdigit, hpoint⟩ := noDigitAhead_of_exponentSpelledBy hexponent hrest
    have hfraction : NoDigitAhead (fractionText n.fraction ++ (exponent ++ rest)) := by
      unfold fractionText
      split
      · exact hdigit
      · exact noDigitAhead_cons (by decide) _
    unfold scanNumber
    rw [List.append_assoc, List.append_assoc, scanWhole_of_spelledBy hwhole hfraction]
    simp only [scanFraction_fractionText _ hdigit hpoint,
      scanExponent_of_spelledBy hexponent hrest]

/-- A number begins with a digit. -/
theorem exists_digit_of_numberSpelledBy {n : Numeral} {word : List Char}
    (h : NumberSpelledBy n word) :
    ∃ (first : Digit) (more : List Char), word = first.char :: more := by
  obtain ⟨hwhole, -⟩ := h
  generalize n.whole = whole at hwhole
  cases hwhole with
  | digits _ => exact ⟨_, _, rfl⟩

/-- A word is read as its token, if nothing continues it where it is a number. -/
theorem scan_of_spelledBy {token : Token} {word rest : List Char} (h : token.SpelledBy word)
    (hrest : ∀ n, token = .number n → NoNumberAhead rest) :
    Token.scan (word ++ rest) = some (token, rest) := by
  cases h with
  | openBrace | closeBrace | openBracket | closeBracket | comma | colon | null | true | false =>
    rfl
  | @positive n word hsign h =>
    have hnumber := scanNumber_of_spelledBy h (hrest n rfl)
    rw [hsign] at hnumber
    -- the first digit tells that a number begins here
    obtain ⟨first, more, rfl⟩ := exists_digit_of_numberSpelledBy h
    rw [List.cons_append] at hnumber ⊢
    rw [scan_digit, hnumber]
    rfl
  | @negative n word hsign h =>
    have hnumber := scanNumber_of_spelledBy h (hrest n rfl)
    rw [hsign] at hnumber
    rw [List.cons_append, Token.scan, hnumber]
    rfl
  | @string pieces word h =>
    have hpieces := scanPieces_of_piecesSpelledBy h [] rest
    simp only [List.cons_append, List.append_assoc, List.nil_append, Token.scan, scanString,
      hpieces, List.reverse_nil, Option.map_some]

/-! ## Texts are cut into their tokens -/

/-- A token that never continues a number. -/
def Token.isPunctuation : Token → Bool
  | .openBrace | .closeBrace | .openBracket | .closeBracket | .comma | .colon => true
  | _ => false

/-- Tokens among which every number is followed by punctuation, or by nothing. -/
def Token.Separated : List Token → Prop
  | [] => True
  | token :: rest =>
    (∀ n, token = .number n → ∀ next ∈ rest.head?, next.isPunctuation) ∧ Separated rest

theorem head?_itemTokens (items : List Json) (rest : List Token) :
    ∀ next ∈ (itemTokens items ++ .closeBracket :: rest).head?, next.isPunctuation := by
  cases items with
  | nil => simp [itemTokens, Token.isPunctuation]
  | cons item items => simp [itemTokens, Token.isPunctuation]

theorem head?_memberTokens (members : List (Quotation × Json)) (rest : List Token) :
    ∀ next ∈ (memberTokens members ++ .closeBrace :: rest).head?, next.isPunctuation := by
  cases members with
  | nil => simp [memberTokens, Token.isPunctuation]
  | cons member members => simp [memberTokens, Token.isPunctuation]

mutual

/-- The tokens of a value are separated, and so are those behind it. -/
theorem separated_tokens :
    ∀ (value : Json) {rest : List Token}, (∀ next ∈ rest.head?, next.isPunctuation) →
      Token.Separated rest → Token.Separated (value.tokens ++ rest)
  | .null, _, _, hrest | .bool _, _, _, hrest | .string _, _, _, hrest => by
    simpa [tokens, Token.Separated] using hrest
  | .number n, rest, hnext, hrest => by
    -- a number has to be kept apart from a word that follows it
    have hnumber : ∀ m, Token.number n = .number m → ∀ next ∈ rest.head?, next.isPunctuation :=
      fun _ _ => hnext
    exact ⟨hnumber, hrest⟩
  | .array [], _, _, hrest | .object [], _, _, hrest => by
    simpa [tokens, Token.Separated] using hrest
  | .array (item :: items), rest, _, hrest => by
    -- from the bracket backwards
    have hclose : Token.Separated (.closeBracket :: rest) := by
      simpa [Token.Separated] using hrest
    have hitems := separated_itemTokens items (head?_itemTokens [] rest) hclose
    have hitem := separated_tokens item (head?_itemTokens items rest) hitems
    simpa [tokens, Token.Separated] using hitem
  | .object ((name, value) :: members), rest, _, hrest => by
    have hclose : Token.Separated (.closeBrace :: rest) := by
      simpa [Token.Separated] using hrest
    have hmembers := separated_memberTokens members (head?_memberTokens [] rest) hclose
    have hvalue := separated_tokens value (head?_memberTokens members rest) hmembers
    simpa [tokens, Token.Separated] using hvalue

theorem separated_itemTokens :
    ∀ (items : List Json) {rest : List Token}, (∀ next ∈ rest.head?, next.isPunctuation) →
      Token.Separated rest → Token.Separated (itemTokens items ++ rest)
  | [], _, _, hrest => hrest
  | item :: items, rest, hnext, hrest => by
    have hitems := separated_itemTokens items hnext hrest
    have hhead : ∀ next ∈ (itemTokens items ++ rest).head?, next.isPunctuation := by
      cases items with
      | nil => simpa [itemTokens] using hnext
      | cons second items => simp [itemTokens, Token.isPunctuation]
    have hitem := separated_tokens item hhead hitems
    simpa [itemTokens, Token.Separated] using hitem

theorem separated_memberTokens :
    ∀ (members : List (Quotation × Json)) {rest : List Token},
      (∀ next ∈ rest.head?, next.isPunctuation) → Token.Separated rest →
        Token.Separated (memberTokens members ++ rest)
  | [], _, _, hrest => hrest
  | (name, value) :: members, rest, hnext, hrest => by
    have hmembers := separated_memberTokens members hnext hrest
    have hhead : ∀ next ∈ (memberTokens members ++ rest).head?, next.isPunctuation := by
      cases members with
      | nil => simpa [memberTokens] using hnext
      | cons second members => simp [memberTokens, Token.isPunctuation]
    have hvalue := separated_tokens value hhead hmembers
    simpa [memberTokens, Token.Separated] using hvalue

end

/-! ## Texts are cut into the tokens that they spell -/

theorem noNumberAhead_spaces {spaces rest : List Char} (hspaces : ∀ c ∈ spaces, isSpace c)
    (hrest : NoNumberAhead rest) : NoNumberAhead (spaces ++ rest) := by
  cases spaces with
  | nil => exact hrest
  | cons c spaces =>
    have hc : isSpace c := hspaces c List.mem_cons_self
    rcases eq_of_isSpace hc with rfl | rfl | rfl | rfl
    all_goals exact noNumberAhead_cons (by decide) _

/-- White space and punctuation do not continue a number. -/
theorem noNumberAhead_of_tokensSpelledBy {tokens : List Token} {cs : List Char}
    (h : TokensSpelledBy tokens cs) (hnext : ∀ next ∈ tokens.head?, next.isPunctuation) :
    NoNumberAhead cs := by
  cases h with
  | nil hspaces =>
    have hend : NoNumberAhead [] := fun c hc => by simp at hc
    simpa using noNumberAhead_spaces hspaces hend
  | @cons token tokens spaces word rest hspaces hword _ =>
    have hpunctuation : token.isPunctuation := hnext token rfl
    refine noNumberAhead_spaces hspaces ?_
    cases hword with
    | openBrace | closeBrace | openBracket | closeBracket | comma | colon =>
      exact noNumberAhead_cons (by decide) _
    | _ => simp [Token.isPunctuation] at hpunctuation

/-- A text is cut into the tokens that it spells. -/
theorem lexAfter_of_tokensSpelledBy {tokens : List Token} {cs : List Char}
    (h : TokensSpelledBy tokens cs) (hseparated : Token.Separated tokens) (found : List Token) :
    Token.lexAfter found cs = some (found.reverse ++ tokens) := by
  induction h generalizing found with
  | @nil spaces hspaces =>
    have hlex := Token.lexAfter_spaces hspaces found []
    rw [List.append_nil] at hlex
    rw [hlex, Token.lexAfter, List.append_nil]
  | @cons token tokens spaces word rest hspaces hword hrest ih =>
    have hahead : ∀ n, token = .number n → NoNumberAhead rest := fun n hn =>
      noNumberAhead_of_tokensSpelledBy hrest (hseparated.1 n hn)
    rw [Token.lexAfter_spaces hspaces,
      Token.lexAfter_of_scan (scan_of_spelledBy hword hahead), ih hseparated.2]
    simp

theorem lex_of_spelledBy {value : Json} {cs : List Char} (h : value.SpelledBy cs) :
    Token.lex cs = some value.tokens := by
  have hseparated := @separated_tokens value [] (by simp) trivial
  rw [List.append_nil] at hseparated
  exact lexAfter_of_tokensSpelledBy h hseparated []

/-! ## What is read as a token is one of its words -/

theorem char_of_digit? {c : Char} {d : Digit} (h : digit? c = some d) : d.char = c := by
  unfold digit? at h
  split at h
  · next hrange =>
    obtain rfl := Option.some.inj h
    have hdigit : c.isDigit := by
      simpa [Char.isDigit, Char.le_def, ge_iff_le] using hrange
    exact Digit.char_ofNat_of_isDigit hdigit
  · simp at h

theorem eq_append_of_scanDigits {cs rest : List Char} {digits : List Digit}
    (h : scanDigits cs = (digits, rest)) : cs = digits.map Digit.char ++ rest := by
  induction cs generalizing digits with
  | nil =>
    obtain ⟨rfl, rfl⟩ := Prod.mk.inj h
    rfl
  | cons c cs ih =>
    unfold scanDigits at h
    split at h
    · next d hdigit =>
      obtain ⟨rfl, rfl⟩ := Prod.mk.inj h
      have hrest := ih rfl
      rw [List.map_cons, List.cons_append, char_of_digit? hdigit]
      exact congrArg (c :: ·) hrest
    · obtain ⟨rfl, rfl⟩ := Prod.mk.inj h
      rfl

theorem spelledBy_of_scanPieces {done pieces : List Piece} {cs rest : List Char}
    (h : scanPieces done cs = some (pieces, rest)) :
    ∃ more word, pieces = done.reverse ++ more ∧ cs = word ++ '"' :: rest ∧
      PiecesSpelledBy more word := by
  fun_induction scanPieces done cs with
  | case1 done tail =>
    obtain ⟨rfl, rfl⟩ := Prod.mk.inj (Option.some.inj h)
    exact ⟨[], [], by simp, rfl, .nil⟩
  | case2 done a b c d tail code hcode ih =>
    obtain ⟨more, word, rfl, rfl, hword⟩ := ih h
    exact ⟨_, _, by simp, by simp, .cons (.code hcode) hword⟩
  -- an escape that is none
  | case3 => simp at h
  | case4 done letter tail _ c hletter ih =>
    obtain ⟨more, word, rfl, rfl, hword⟩ := ih h
    exact ⟨_, _, by simp, by simp, .cons (.letter hletter) hword⟩
  | case5 => simp at h
  | case6 => simp at h
  | case7 done c tail hquote _ _ hplain ih =>
    obtain ⟨more, word, rfl, rfl, hword⟩ := ih h
    obtain ⟨hcontrol, hslash⟩ := not_or.1 hplain
    exact ⟨_, _, by simp, by simp, .cons (.plain hquote hslash hcontrol) hword⟩
  | case8 => simp at h

theorem spelledBy_of_scanWhole {n : Nat} {cs rest : List Char}
    (h : scanWhole cs = some (n, rest)) : ∃ word, cs = word ++ rest ∧ WholeSpelledBy n word := by
  unfold scanWhole at h
  split at h
  · simp at h
  · next d tail hdigits =>
    obtain ⟨rfl, rfl⟩ := Prod.mk.inj (Option.some.inj h)
    have hvalue : Number.ofDigits [d] = d.val := by simp [Number.ofDigits]
    have hword : WholeSpelledBy (Number.ofDigits [d]) ([d].map Digit.char) := .digits (.inl rfl)
    rw [hvalue] at hword
    exact ⟨_, eq_append_of_scanDigits hdigits, hword⟩
  · next d digits tail _ hdigits =>
    split at h
    · simp at h
    · next hfirst =>
      obtain ⟨rfl, rfl⟩ := Prod.mk.inj (Option.some.inj h)
      exact ⟨_, eq_append_of_scanDigits hdigits, .digits (.inr hfirst)⟩

theorem eq_append_of_scanFraction {digits : List Digit} {cs rest : List Char}
    (h : scanFraction cs = some (digits, rest)) : cs = fractionText digits ++ rest := by
  unfold scanFraction at h
  split at h
  · next tail =>
    split at h
    · simp at h
    · next hfound hdigits =>
      obtain ⟨rfl, rfl⟩ := Prod.mk.inj (Option.some.inj h)
      rw [fractionText, if_neg hfound, List.cons_append, eq_append_of_scanDigits hdigits]
  · obtain ⟨rfl, rfl⟩ := Prod.mk.inj (Option.some.inj h)
    rfl

theorem exists_digits_of_scanExponentDigits {negative : Bool} {exponent : Option Int}
    {cs rest : List Char} (h : scanExponentDigits negative cs = some (exponent, rest)) :
    ∃ digits : List Digit, digits ≠ [] ∧ cs = digits.map Digit.char ++ rest ∧
      exponent = some (if negative then -(Number.ofDigits digits : Int)
        else Number.ofDigits digits) := by
  unfold scanExponentDigits at h
  split at h
  · simp at h
  · next hfound hdigits =>
    obtain ⟨rfl, rfl⟩ := Prod.mk.inj (Option.some.inj h)
    exact ⟨_, hfound, eq_append_of_scanDigits hdigits, rfl⟩

theorem spelledBy_of_scanExponent {exponent : Option Int} {cs rest : List Char}
    (h : scanExponent cs = some (exponent, rest)) :
    ∃ word, cs = word ++ rest ∧ ExponentSpelledBy exponent word := by
  unfold scanExponent at h
  split at h
  · obtain ⟨rfl, rfl⟩ := Prod.mk.inj (Option.some.inj h)
    exact ⟨[], rfl, .none⟩
  · next letter tail =>
    split at h
    · next hletter =>
      split at h
      all_goals
        obtain ⟨digits, hdigits, rfl, rfl⟩ := exists_digits_of_scanExponentDigits h
      · exact ⟨_, rfl, .positive hletter hdigits⟩
      · exact ⟨_, rfl, .negative hletter hdigits⟩
      · exact ⟨_, rfl, .unsigned hletter hdigits⟩
    · obtain ⟨rfl, rfl⟩ := Prod.mk.inj (Option.some.inj h)
      exact ⟨[], rfl, .none⟩

theorem spelledBy_of_scanNumber {negative : Bool} {n : Numeral} {cs rest : List Char}
    (h : scanNumber negative cs = some (n, rest)) :
    n.negative = negative ∧ ∃ word, cs = word ++ rest ∧ NumberSpelledBy n word := by
  unfold scanNumber at h
  split at h
  · simp at h
  · next whole afterWhole hwhole =>
    split at h
    · simp at h
    · next fraction afterFraction hfraction =>
      split at h
      · simp at h
      · next exponent tail hexponent =>
        obtain ⟨rfl, rfl⟩ := Prod.mk.inj (Option.some.inj h)
        -- whole part, fraction and exponent, one after the other
        obtain ⟨wholeWord, rfl, hwholeWord⟩ := spelledBy_of_scanWhole hwhole
        obtain rfl := eq_append_of_scanFraction hfraction
        obtain ⟨exponentWord, rfl, hexponentWord⟩ := spelledBy_of_scanExponent hexponent
        have hword := NumberSpelledBy.parts (n := ⟨negative, whole, fraction, exponent⟩)
          hwholeWord hexponentWord
        exact ⟨rfl, _, by simp, hword⟩

/-- What is read as a token is one of its words. -/
theorem spelledBy_of_scan {token : Token} {cs rest : List Char}
    (h : Token.scan cs = some (token, rest)) :
    ∃ word, cs = word ++ rest ∧ token.SpelledBy word := by
  unfold Token.scan at h
  split at h
  -- texts and numbers are scanned by themselves, and all else is a fixed word
  case h_7 =>
    simp only [scanString, Option.map_map, Option.map_eq_some_iff, Function.comp_apply] at h
    obtain ⟨⟨pieces, tail⟩, hpieces, heq⟩ := h
    obtain ⟨rfl, rfl⟩ := Prod.mk.inj heq
    obtain ⟨more, word, rfl, rfl, hword⟩ := spelledBy_of_scanPieces hpieces
    exact ⟨_, by simp, .string hword⟩
  case h_8 =>
    obtain ⟨⟨n, tail⟩, hnumber, heq⟩ := Option.map_eq_some_iff.1 h
    obtain ⟨rfl, rfl⟩ := Prod.mk.inj heq
    obtain ⟨hsign, word, rfl, hword⟩ := spelledBy_of_scanNumber hnumber
    exact ⟨_, rfl, .negative hsign hword⟩
  case h_12 =>
    obtain ⟨⟨n, tail⟩, hnumber, heq⟩ := Option.map_eq_some_iff.1 h
    obtain ⟨rfl, rfl⟩ := Prod.mk.inj heq
    obtain ⟨hsign, word, rfl, hword⟩ := spelledBy_of_scanNumber hnumber
    exact ⟨_, rfl, .positive hsign hword⟩
  all_goals
    obtain ⟨rfl, rfl⟩ := Prod.mk.inj (Option.some.inj h)
    exact ⟨_, rfl, by constructor⟩

/-! ## What is read as a value spells it -/

/-- A text spells the tokens that it is cut into. -/
theorem spelledBy_of_lexAfter {found tokens : List Token} {cs : List Char}
    (h : Token.lexAfter found cs = some tokens) :
    ∃ more, tokens = found.reverse ++ more ∧ TokensSpelledBy more cs := by
  fun_induction Token.lexAfter found cs with
  | case1 found =>
    obtain rfl := Option.some.inj h
    exact ⟨[], by simp, .nil (by simp)⟩
  | case2 found c rest hspace ih =>
    obtain ⟨more, rfl, hmore⟩ := ih h
    refine ⟨more, rfl, ?_⟩
    -- the white space goes to what comes next
    cases hmore with
    | nil hspaces =>
      exact .nil (List.forall_mem_cons.2 ⟨hspace, hspaces⟩)
    | @cons _ _ spaces word tail hspaces hword hrest =>
      exact .cons (List.forall_mem_cons.2 ⟨hspace, hspaces⟩) hword hrest
  | case3 => simp at h
  | case4 found c rest _ token tail hscan ih =>
    obtain ⟨more, rfl, hmore⟩ := ih h
    obtain ⟨word, hcs, hword⟩ := spelledBy_of_scan hscan
    rw [hcs]
    exact ⟨token :: more, by simp, @TokensSpelledBy.cons _ _ [] _ _ (by simp) hword hmore⟩

/-- A text spells a value exactly if it is cut into the tokens of the value. -/
theorem spelledBy_iff_lex {value : Json} {cs : List Char} :
    value.SpelledBy cs ↔ Token.lex cs = some value.tokens := by
  constructor
  · exact lex_of_spelledBy
  · intro h
    obtain ⟨more, hmore, hspelled⟩ := spelledBy_of_lexAfter h
    rw [SpelledBy, hmore]
    simpa using hspelled

instance (value : Json) (cs : List Char) : Decidable (value.SpelledBy cs) :=
  decidable_of_iff _ spelledBy_iff_lex.symm

/-- A text is read as a value exactly if it spells the value. -/
theorem parse?_eq_some_iff {text : String} {value : Json} :
    parse? text = some value ↔ value.SpelledBy text.toList := by
  rw [spelledBy_iff_lex, parse?, Option.bind_eq_some_iff]
  constructor
  · rintro ⟨tokens, hlex, hvalue⟩
    rw [hlex, ofTokens?_eq_some_iff.1 hvalue]
  · intro hlex
    exact ⟨_, hlex, ofTokens?_tokens value⟩

end BlockData.Json
