import BlockData.Json.Token

/-!
# From text to tokens

`Token.lex` cuts a JSON text into its tokens.  White space between tokens counts for
nothing.
-/

namespace BlockData.Json.Token

/-- The tokens of a text, after those already found, the latest in front. -/
def lexAfter (found : List Token) (cs : List Char) : Option (List Token) :=
  match cs with
  | [] => some found.reverse
  | c :: rest =>
    if isSpace c then
      lexAfter found rest
    else
      match _h : scan (c :: rest) with
      | none => none
      | some (token, rest') => lexAfter (token :: found) rest'
  termination_by cs.length
  decreasing_by
    · simp
    · exact scan_length _h

/-- The tokens of a text, if it consists of tokens and white space. -/
def lex (cs : List Char) : Option (List Token) :=
  lexAfter [] cs

end BlockData.Json.Token
