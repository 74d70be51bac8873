import BlockData.Json.Basic

/-!
# JSON tokens

The words of a JSON text, how strings are escaped in it, and the reading of one token
off the front of a text.

* `Token.scan` takes the longest token off a text;
* `scan_length` says that it leaves less than it was given;
* `Token.nesting` counts how many arrays and objects are open at once.
-/

namespace BlockData.Json

open Number (Numeral Digit)

/-- A word of a JSON text. -/
inductive Token where
  | openBrace
  | closeBrace
  | openBracket
  | closeBracket
  | comma
  | colon
  | null
  | bool (value : Bool)
  | number (numeral : Numeral)
  | string (content : Quotation)
  deriving DecidableEq, Repr

/-- The white space that may stand between tokens. -/
def isSpace (c : Char) : Bool :=
  c = ' ' || c = '\t' || c = '\n' || c = '\r'

/-! ## Strings -/

/-- What one character or one escape inside quotes stands for. -/
inductive Piece where
  | char (c : Char)
  /-- Half of a pair that encodes one character. -/
  | surrogate (code : Nat)
  deriving DecidableEq, Repr

/-- The value of a hexadecimal digit, in either case. -/
def hexDigit? (c : Char) : Option Nat :=
  if '0' ≤ c ∧ c ≤ '9' then some (c.toNat - '0'.toNat)
  else if 'a' ≤ c ∧ c ≤ 'f' then some (c.toNat - 'a'.toNat + 10)
  else if 'A' ≤ c ∧ c ≤ 'F' then some (c.toNat - 'A'.toNat + 10)
  else none

/-- The code that four hexadecimal digits write. -/
def hexCode? (a b c d : Char) : Option Nat :=
  match hexDigit? a, hexDigit? b, hexDigit? c, hexDigit? d with
  | some a, some b, some c, some d => some (((a * 16 + b) * 16 + c) * 16 + d)
  | _, _, _, _ => none

/-- The piece of a 16-bit code. -/
def Piece.ofCode (code : Nat) : Piece :=
  if 0xD800 ≤ code ∧ code < 0xE000 then .surrogate code else .char (Char.ofNat code)

/-- The character of a one-letter escape. -/
def shortEscape? : Char → Option Char
  | '"' => some '"'
  | '\\' => some '\\'
  | '/' => some '/'
  | 'b' => some '\x08'
  | 'f' => some '\x0c'
  | 'n' => some '\n'
  | 'r' => some '\r'
  | 't' => some '\t'
  | _ => none

/-- Read up to the closing quote.  Control characters must be escaped. -/
def scanPieces (done : List Piece) : List Char → Option (List Piece × List Char)
  | '"' :: rest => some (done.reverse, rest)
  | '\\' :: 'u' :: a :: b :: c :: d :: rest =>
    match hexCode? a b c d with
    | some code => scanPieces (Piece.ofCode code :: done) rest
    | none => none
  -- a long escape that is cut off comes here as well, and has no short form
  | '\\' :: letter :: rest =>
    match shortEscape? letter with
    | some c => scanPieces (.char c :: done) rest
    | none => none
  | c :: rest =>
    if c.toNat < 0x20 ∨ c = '\\' then none else scanPieces (.char c :: done) rest
  | [] => none

/-- The character that a high and a low surrogate encode together. -/
def pairedChar? (high low : Nat) : Option Char :=
  if high < 0xDC00 ∧ 0xDC00 ≤ low then
    some (Char.ofNat (0x10000 + (high - 0xD800) * 0x400 + (low - 0xDC00)))
  else
    none

/-- The text of the pieces, if every surrogate has its partner. -/
def joinPieces : List Piece → Option (List Char)
  | [] => some []
  | .char c :: rest => (joinPieces rest).map (c :: ·)
  | .surrogate high :: .surrogate low :: rest =>
    match pairedChar? high low with
    | some c => (joinPieces rest).map (c :: ·)
    | none => none
  | .surrogate _ :: _ => none

/-- Read a string after its opening quote. -/
def scanString (cs : List Char) : Option (Quotation × List Char) :=
  (scanPieces [] cs).map fun (pieces, rest) => ((joinPieces pieces).map String.ofList, rest)

/-- The two hexadecimal digits of a control character. -/
def controlDigits (c : Char) : List Char :=
  [Nat.digitChar (c.toNat / 16), Nat.digitChar (c.toNat % 16)]

/-- A character as it stands between quotes: quotes, backslashes and controls escaped,
all else as it is. -/
def escapeChar (c : Char) : List Char :=
  match c with
  | '"' => ['\\', '"']
  | '\\' => ['\\', '\\']
  | '\x08' => ['\\', 'b']
  | '\x0c' => ['\\', 'f']
  | '\n' => ['\\', 'n']
  | '\r' => ['\\', 'r']
  | '\t' => ['\\', 't']
  | c => if c.toNat < 0x20 then ['\\', 'u', '0', '0'] ++ controlDigits c else [c]

/-- A text between quotes. -/
def quote (s : String) : List Char :=
  '"' :: s.toList.flatMap escapeChar ++ ['"']

/-! ## Numbers -/

/-- The value of a decimal digit. -/
def digit? (c : Char) : Option Digit :=
  if '0' ≤ c ∧ c ≤ '9' then some (Digit.ofNat (c.toNat - '0'.toNat)) else none

/-- The digits at the front of a text, and what follows them. -/
def scanDigits : List Char → List Digit × List Char
  | [] => ([], [])
  | c :: rest =>
    match digit? c with
    | some d => (scanDigits rest).map (d :: ·) id
    | none => ([], c :: rest)

/-- Read the whole part: one digit, or several of which the first is not zero. -/
def scanWhole (cs : List Char) : Option (Nat × List Char) :=
  match scanDigits cs with
  | ([], _) => none
  | ([d], rest) => some (d.val, rest)
  | (d :: digits, rest) => if d.val = 0 then none else some (Number.ofDigits (d :: digits), rest)

/-- Read a fraction, if a point stands there; at least one digit belongs to it. -/
def scanFraction (cs : List Char) : Option (List Digit × List Char) :=
  match cs with
  | '.' :: rest =>
    match scanDigits rest with
    | ([], _) => none
    | (digits, rest) => some (digits, rest)
  | cs => some ([], cs)

/-- Read the digits of an exponent with the given sign. -/
def scanExponentDigits (negative : Bool) (cs : List Char) : Option (Option Int × List Char) :=
  match scanDigits cs with
  | ([], _) => none
  | (digits, rest) =>
    let size : Int := Number.ofDigits digits
    some (some (if negative then -size else size), rest)

/-- Read an exponent, if the letter for it stands there; it may have a sign. -/
def scanExponent (cs : List Char) : Option (Option Int × List Char) :=
  match cs with
  | [] => some (none, [])
  | c :: rest =>
    if c = 'e' ∨ c = 'E' then
      match rest with
      | '+' :: rest => scanExponentDigits false rest
      | '-' :: rest => scanExponentDigits true rest
      | rest => scanExponentDigits false rest
    else
      some (none, c :: rest)

/-- Read a number after its sign. -/
def scanNumber (negative : Bool) (cs : List Char) : Option (Numeral × List Char) :=
  match scanWhole cs with
  | none => none
  | some (whole, rest) =>
    match scanFraction rest with
    | none => none
    | some (fraction, rest) =>
      match scanExponent rest with
      | none => none
      | some (exponent, rest) => some (⟨negative, whole, fraction, exponent⟩, rest)

/-! ## Tokens -/

namespace Token

/-- Read one token off the front of a text. -/
def scan : List Char → Option (Token × List Char)
  | '\x7b' :: rest => some (.openBrace, rest)
  | '\x7d' :: rest => some (.closeBrace, rest)
  | '[' :: rest => some (.openBracket, rest)
  | ']' :: rest => some (.closeBracket, rest)
  | ',' :: rest => some (.comma, rest)
  | ':' :: rest => some (.colon, rest)
  | '"' :: rest => (scanString rest).map fun (content, rest) => (.string content, rest)
  | '-' :: rest => (scanNumber true rest).map fun (numeral, rest) => (.number numeral, rest)
  | 'n' :: 'u' :: 'l' :: 'l' :: rest => some (.null, rest)
  | 't' :: 'r' :: 'u' :: 'e' :: rest => some (.bool true, rest)
  | 'f' :: 'a' :: 'l' :: 's' :: 'e' :: rest => some (.bool false, rest)
  | cs => (scanNumber false cs).map fun (numeral, rest) => (.number numeral, rest)

/-- The greatest number of arrays and objects that are open at once, `opened` of them
being open before, and `deepest` having been seen. -/
def nestingFrom (opened deepest : Nat) : List Token → Nat
  | [] => deepest
  | .openBrace :: rest => nestingFrom (opened + 1) (max deepest (opened + 1)) rest
  | .openBracket :: rest => nestingFrom (opened + 1) (max deepest (opened + 1)) rest
  | .closeBrace :: rest => nestingFrom (opened - 1) deepest rest
  | .closeBracket :: rest => nestingFrom (opened - 1) deepest rest
  | _ :: rest => nestingFrom opened deepest rest

/-- How deeply arrays and objects are nested in a text. -/
def nesting (tokens : List Token) : Nat :=
  nestingFrom 0 0 tokens

end Token

/-! ## Progress -/

theorem scanPieces_length {done pieces : List Piece} {cs rest : List Char}
    (h : scanPieces done cs = some (pieces, rest)) : rest.length < cs.length := by
  fun_induction scanPieces done cs with
  | case1 => simp_all
  | case2 done a b c d rest' code hcode ih =>
    have := ih h
    simp only [List.length_cons]
    omega
  | case3 => simp at h
  | case4 done letter rest' hnot c hc ih =>
    have := ih h
    simp only [List.length_cons]
    omega
  | case5 => simp at h
  | case6 => simp at h
  | case7 done c rest' h1 h2 h3 hc ih =>
    have := ih h
    simp only [List.length_cons]
    omega
  | case8 => simp at h

theorem scanString_length {content : Quotation} {cs rest : List Char}
    (h : scanString cs = some (content, rest)) : rest.length < cs.length := by
  unfold scanString at h
  simp only [Option.map_eq_some_iff, Prod.exists, Prod.mk.injEq] at h
  obtain ⟨pieces, r, hs, -, rfl⟩ := h
  exact scanPieces_length hs

theorem scanDigits_length (cs : List Char) :
    (scanDigits cs).2.length + (scanDigits cs).1.length = cs.length := by
  induction cs with
  | nil => rfl
  | cons c rest ih =>
    unfold scanDigits
    split
    · simp only [Prod.map_fst, Prod.map_snd, id, List.length_cons]
      omega
    · simp

theorem scanWhole_length {n : Nat} {cs rest : List Char}
    (h : scanWhole cs = some (n, rest)) : rest.length < cs.length := by
  have hl := scanDigits_length cs
  unfold scanWhole at h
  split at h
  · simp at h
  · next d r hd =>
    simp only [Option.some.injEq, Prod.mk.injEq] at h
    rw [hd] at hl
    simp only [List.length_cons, List.length_nil] at hl
    rw [← h.2]
    omega
  · next d ds r hne hd =>
    split at h
    · simp at h
    · simp only [Option.some.injEq, Prod.mk.injEq] at h
      rw [hd] at hl
      simp only [List.length_cons] at hl
      rw [← h.2]
      omega

theorem scanFraction_length {digits : List Digit} {cs rest : List Char}
    (h : scanFraction cs = some (digits, rest)) : rest.length ≤ cs.length := by
  unfold scanFraction at h
  split at h
  · next r =>
    have hl := scanDigits_length r
    split at h
    · simp at h
    · next ds r' hne hd =>
      simp only [Option.some.injEq, Prod.mk.injEq] at h
      rw [hd] at hl
      simp only [List.length_cons]
      rw [← h.2]
      simp only at hl
      omega
  · simp only [Option.some.injEq, Prod.mk.injEq] at h
    exact h.2 ▸ Nat.le_refl _

theorem scanExponentDigits_length {negative : Bool} {e : Option Int} {cs rest : List Char}
    (h : scanExponentDigits negative cs = some (e, rest)) : rest.length ≤ cs.length := by
  have hl := scanDigits_length cs
  unfold scanExponentDigits at h
  split at h
  · simp at h
  · next ds r hne hd =>
    simp only [Option.some.injEq, Prod.mk.injEq] at h
    rw [hd] at hl
    rw [← h.2]
    simp only at hl
    omega

theorem scanExponent_length {e : Option Int} {cs rest : List Char}
    (h : scanExponent cs = some (e, rest)) : rest.length ≤ cs.length := by
  unfold scanExponent at h
  split at h
  · simp only [Option.some.injEq, Prod.mk.injEq] at h
    exact h.2 ▸ Nat.le_refl _
  · split at h
    · split at h
      all_goals
        have := scanExponentDigits_length h
        simp only [List.length_cons]
        try simp only [List.length_cons] at this
        omega
    · simp only [Option.some.injEq, Prod.mk.injEq] at h
      exact h.2 ▸ Nat.le_refl _

theorem scanNumber_length {negative : Bool} {n : Numeral} {cs rest : List Char}
    (h : scanNumber negative cs = some (n, rest)) : rest.length < cs.length := by
  unfold scanNumber at h
  split at h
  · simp at h
  · next w r hw =>
    split at h
    · simp at h
    · next f r' hf =>
      split at h
      · simp at h
      · next e r'' he =>
        simp only [Option.some.injEq, Prod.mk.injEq] at h
        have := scanWhole_length hw
        have := scanFraction_length hf
        have := scanExponent_length he
        rw [← h.2]
        omega

/-- A token takes at least one character. -/
theorem scan_length {t : Token} {cs rest : List Char}
    (h : Token.scan cs = some (t, rest)) : rest.length < cs.length := by
  unfold Token.scan at h
  split at h
  case h_7 r =>
    simp only [Option.map_eq_some_iff, Prod.exists, Prod.mk.injEq] at h
    obtain ⟨content, r', hs, -, rfl⟩ := h
    have := scanString_length hs
    simp only [List.length_cons]
    omega
  case h_8 r =>
    simp only [Option.map_eq_some_iff, Prod.exists, Prod.mk.injEq] at h
    obtain ⟨n, r', hs, -, rfl⟩ := h
    have := scanNumber_length hs
    simp only [List.length_cons]
    omega
  case h_12 =>
    simp only [Option.map_eq_some_iff, Prod.exists, Prod.mk.injEq] at h
    obtain ⟨n, r', hs, -, rfl⟩ := h
    exact scanNumber_length hs
  all_goals
    simp only [Option.some.injEq, Prod.mk.injEq] at h
    rw [← h.2]
    simp only [List.length_cons]
    omega

end BlockData.Json
