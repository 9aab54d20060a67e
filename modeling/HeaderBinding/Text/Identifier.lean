/-
Identifiers by the rule of Unicode: a letter or an underscore, and then
letters, digits, combining marks and underscores.

* `startsIdentifier`, `continuesIdentifier`: the characters;
* `isIdentifier`: the texts.
-/
import HeaderBinding.Text.Character
import HeaderBinding.Text.IdentifierTable

namespace HeaderBinding

/-- An identifier can start with the character. -/
def startsIdentifier (c : Char) : Bool :=
  if c.toNat < 128 then c == '_' || c.isAlpha
  else
    (isLetter c && !inRanges strangeLetterRanges c.toNat)
      || inRanges startNumeralRanges c.toNat

/-- The character can stand inside an identifier. -/
def continuesIdentifier (c : Char) : Bool :=
  startsIdentifier c || isDecimal c || inRanges innerMarkRanges c.toNat

/-- The text is an identifier. -/
def isIdentifier : List Char → Bool
  | [] => false
  | c :: cs => startsIdentifier c && cs.all continuesIdentifier

end HeaderBinding
