import BlockData.Text.LetterCase

/-!
# Lowercase text

The lowercase form of a text.  Three rules make it more than a map over characters:

* a capital I with a dot above becomes an `i` and a combining dot;
* a capital sigma becomes the final small sigma where a word ends: a cased letter
  stands before it and none after it, case-ignorable characters not counting;
* every other character goes to its simple lowercase form, if it has one.
-/

namespace BlockData.Text

/-- The lowercase form of one character, without regard to its neighbours. -/
def lowerChar (c : Char) : List Char :=
  if c.toNat < 0x80 then
    [c.toLower]
  else if c.toNat = 0x130 then
    ['i', Char.ofNat 0x307]
  else
    match simpleLower? c.toNat with
    | some code => [Char.ofNat code]
    | none => [c]

/-- Whether the first character that counts is a cased letter. -/
def meetsCased (cs : List Char) : Bool :=
  match cs.dropWhile isCaseIgnorable with
  | [] => false
  | c :: _ => isCased c

/-- The small form of a capital sigma between the text before it, nearest character
first, and the text after it. -/
def lowerSigma (before after : List Char) : Char :=
  if meetsCased before && !meetsCased after then 'ς' else 'σ'

/-- The lowercase form of a text that continues `before`, nearest character first. -/
def lowerAfter (before : List Char) : List Char → List Char
  | [] => []
  | c :: rest =>
    -- the only letter whose small form depends on its neighbours
    if c = 'Σ' then
      lowerSigma before rest :: lowerAfter (c :: before) rest
    else
      lowerChar c ++ lowerAfter (c :: before) rest

/-- The lowercase form of a text. -/
def lowercase (s : String) : String :=
  String.ofList (lowerAfter [] s.toList)

@[simp] theorem toList_lowercase (s : String) :
    (lowercase s).toList = lowerAfter [] s.toList := by
  simp [lowercase]

end BlockData.Text
