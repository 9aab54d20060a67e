/-
The classes of characters that headers, names and paths are read by.  All
of them are those of Unicode 14; within ASCII they agree with the usual
ones.

* `isBlank`: white space, including the four information separators;
* `isLetter`, `isNumeral`, `isDigit`, `isDecimal`, `isZero`: letters,
  numerals of every kind, digits, those that decimal numbers are written
  with, and the zeros among these;
* `isWordChar`: a letter, a numeral or an underscore;
* `isCapital`: an upper-case letter;
* `isPrintable`: a character that may be shown as it is.
-/
import HeaderBinding.Text.Ranges
import HeaderBinding.Text.LetterTable
import HeaderBinding.Text.CaseTable
import HeaderBinding.Text.PrintTable

namespace HeaderBinding

/-- White space outside ASCII. -/
def blankRanges : List (Nat × Nat) :=
  [(0x85, 0x85), (0xa0, 0xa0), (0x1680, 0x1680), (0x2000, 0x200a),
    (0x2028, 0x2029), (0x202f, 0x202f), (0x205f, 0x205f),
    (0x3000, 0x3000)]

/-- White space: blanks, line and page breaks, and the separators
`0x1c` to `0x1f`. -/
def isBlank (c : Char) : Bool :=
  if c.toNat < 128 then
    (9 ≤ c.toNat && c.toNat ≤ 13) || (0x1c ≤ c.toNat && c.toNat ≤ 0x20)
  else inRanges blankRanges c.toNat

/-- A letter of any script. -/
def isLetter (c : Char) : Bool :=
  if c.toNat < 128 then c.isAlpha else inRanges letterRanges c.toNat

/-- A decimal digit, or a digit in another position such as a
superscript. -/
def isDigit (c : Char) : Bool :=
  if c.toNat < 128 then c.isDigit else inRanges digitRanges c.toNat

/-- A digit of the decimal numbers of some script. -/
def isDecimal (c : Char) : Bool :=
  if c.toNat < 128 then c.isDigit else inRanges decimalRanges c.toNat

/-- The zero of the decimal numbers of some script. -/
def isZero (c : Char) : Bool :=
  if c.toNat < 128 then c == '0'
  else decimalRanges.any fun r => inRun r.1 r.2 10 c.toNat

/-- A numeral that is not a letter, digits included. -/
def isNumeral (c : Char) : Bool :=
  if c.toNat < 128 then c.isDigit else inRanges numeralRanges c.toNat

/-- A letter, a numeral or an underscore. -/
def isWordChar (c : Char) : Bool :=
  c == '_' || isLetter c || isNumeral c

/-- The first character of an identifier: a letter or an underscore. -/
def isNameStart (c : Char) : Bool :=
  c == '_' || isLetter c

/-- An upper-case letter. -/
def isCapital (c : Char) : Bool :=
  if c.toNat < 128 then c.isUpper
  else capitalRuns.any fun r => inRun r.1 r.2.1 r.2.2 c.toNat

/-- A letter that has a case, other than a modifier letter. -/
def isCased (c : Char) : Bool :=
  if c.toNat < 128 then c.isAlpha else inRanges casedRanges c.toNat

/-- A mark that belongs to the word it stands in: it is passed over when
the neighbouring letters of that word are looked for. -/
def isCaseIgnorable (c : Char) : Bool :=
  if c.toNat < 128 then
    c == '\'' || c == '.' || c == ':' || c == '^' || c.toNat == 0x60
  else inRanges caseIgnorableRanges c.toNat

/-- A character with a printed form; of the blanks only the space. -/
def isPrintable (c : Char) : Bool :=
  if c.toNat < 128 then 0x20 ≤ c.toNat && c.toNat < 127
  else !inRanges unprintableRanges c.toNat

end HeaderBinding
