import BlockData.Json.Token

/-!
# Texts are read as they are quoted

Every character is found again behind its escape, and so is every text between its quotes,
whatever follows it.
-/

namespace BlockData.Json

/-! ## Escapes -/

/-- The hexadecimal digits of a control character write its code. -/
theorem hexCode?_controlDigits : ∀ code < 0x20,
    hexCode? '0' '0' (Nat.digitChar (code / 16)) (Nat.digitChar (code % 16)) = some code := by
  decide

/-- The code of a control character stands for the character. -/
theorem Piece.ofCode_toNat {c : Char} (h : c.toNat < 0x20) : Piece.ofCode c.toNat = .char c := by
  have hlow : ¬ (0xD800 ≤ c.toNat ∧ c.toNat < 0xE000) := by omega
  rw [Piece.ofCode, if_neg hlow, Char.ofNat_toNat]

/-- A character that needs no escape is read as it stands. -/
theorem scanPieces_plain {c : Char} (hquote : c ≠ '"') (hslash : c ≠ '\\')
    (hcontrol : ¬ c.toNat < 0x20) (done : List Piece) (rest : List Char) :
    scanPieces done (c :: rest) = scanPieces (.char c :: done) rest := by
  rw [scanPieces]
  · simp [hcontrol, hslash]
  · exact hquote
  · intro a b d e tail h
    exact absurd h hslash
  · intro letter tail h
    exact absurd h hslash

/-- A character is read from its escape. -/
theorem scanPieces_escapeChar (c : Char) (done : List Piece) (rest : List Char) :
    scanPieces done (escapeChar c ++ rest) = scanPieces (.char c :: done) rest := by
  unfold escapeChar
  split
  · rfl
  · rfl
  · rfl
  · rfl
  · rfl
  · rfl
  · rfl
  · next hquote hslash _ _ _ _ _ =>
    split
    · next hcontrol =>
      -- a control character without a short escape
      simp [controlDigits, scanPieces, hexCode?_controlDigits _ hcontrol,
        Piece.ofCode_toNat hcontrol]
    · next hcontrol => exact scanPieces_plain hquote hslash hcontrol done rest

/-- The characters of a text are read up to the closing quote. -/
theorem scanPieces_flatMap (cs : List Char) (done : List Piece) (rest : List Char) :
    scanPieces done (cs.flatMap escapeChar ++ '"' :: rest) =
      some (done.reverse ++ cs.map .char, rest) := by
  induction cs generalizing done with
  | nil => simp [scanPieces]
  | cons c cs ih =>
    rw [List.flatMap_cons, List.append_assoc, scanPieces_escapeChar, ih]
    simp

/-- Characters without surrogates are their own text. -/
theorem joinPieces_map_char (cs : List Char) : joinPieces (cs.map .char) = some cs := by
  induction cs with
  | nil => rfl
  | cons c cs ih => simp [joinPieces, ih]

/-! ## Texts -/

/-- A text between quotes is read as one token. -/
theorem scan_quote (s : String) (rest : List Char) :
    Token.scan (quote s ++ rest) = some (.string (some s), rest) := by
  have hpieces := scanPieces_flatMap s.toList [] rest
  simp [quote, Token.scan, scanString, hpieces, joinPieces_map_char]

end BlockData.Json
