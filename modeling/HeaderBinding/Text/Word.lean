/-
Whole words: maximal runs of letters, numerals and underscores.

* `wordRuns`: the text cut into its words and what stands between them;
* `hasWord`: a word occurs;
* `blankOutWords`: every word of a list gives way to one space;
* `replaceWord`: a piece gives way where its ends are ends of words.
-/
import HeaderBinding.Text.Character

namespace HeaderBinding

/-- The maximal runs of word characters and of other characters. -/
def wordRuns (cs : List Char) : List (List Char) :=
  cs.splitBy fun a b => isWordChar a == isWordChar b

/-- The text has `word` as a whole word. -/
def hasWord (word cs : List Char) : Bool :=
  (wordRuns cs).contains word

/-- Every whole word of the list gives way to one space. -/
def blankOutWords (words : List (List Char)) (cs : List Char) :
    List Char :=
  (wordRuns cs).flatMap fun run => if words.contains run then [' '] else run

/-- A word starts or ends between the two characters; the ends of the text
count as characters outside words. -/
def wordBoundary (before after : Option Char) : Bool :=
  before.any isWordChar != after.any isWordChar

/-- Replacing from the left, where `before` is the character last read and
the first `skip` characters belong to a replaced occurrence. -/
def replaceWordFrom (piece new : List Char) :
    Option Char → Nat → List Char → List Char
  | _, _, [] => []
  | _, skip + 1, c :: cs => replaceWordFrom piece new (some c) skip cs
  | before, 0, c :: cs =>
    if piece.isPrefixOf (c :: cs) && wordBoundary before (some c)
        && wordBoundary piece.getLast? (cs.drop (piece.length - 1)).head? then
      new ++ replaceWordFrom piece new (some c) (piece.length - 1) cs
    else c :: replaceWordFrom piece new (some c) 0 cs

/-- Every occurrence of a non-empty piece with a word boundary at each of
its ends gives way to `new`. -/
def replaceWord (piece new cs : List Char) : List Char :=
  replaceWordFrom piece new none 0 cs

end HeaderBinding
