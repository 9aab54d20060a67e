/-
The tokens of a text with the places where they start.

* `Position.after`: the place reached after reading some text;
* `placeTokens`: the tokens of a row of lexemes, placed, with a token for
  the end of the text behind them;
* `tokenize`: the tokens of a text; `tokenize_intercalate`: those of a text
  that is joined of parts.
-/
import HeaderBinding.Token.Lexeme

namespace HeaderBinding

/-- A line and a column, both counted from one. -/
structure Position where
  line : Nat := 1
  column : Nat := 1
deriving DecidableEq, Repr

/-- The place after one more character: a line feed starts a line. -/
def Position.next (p : Position) (c : Char) : Position :=
  if c = '\n' then ⟨p.line + 1, 1⟩ else ⟨p.line, p.column + 1⟩

/-- The place after some text. -/
def Position.after (p : Position) (cs : List Char) : Position :=
  cs.foldl Position.next p

theorem Position.after_append (p : Position) (as bs : List Char) :
    p.after (as ++ bs) = (p.after as).after bs := by
  simp [Position.after]

/-- The token of a lexeme, if it makes one, at a place. -/
def Lexeme.placed (l : Lexeme) (p : Position) : List Token :=
  match l.token? with
  | some (kind, value) => [⟨kind, value, p.line, p.column⟩]
  | none => []

/-- The end of a text, at a place. -/
def endToken (p : Position) : Token :=
  ⟨.endOfInput, "", p.line, p.column⟩

/-- The placed tokens of a row of lexemes that starts at `p`. -/
def placeTokens (p : Position) : List Lexeme → List Token
  | [] => [endToken p]
  | l :: ls => l.placed p ++ placeTokens (p.after l.raw) ls

/-- The tokens of a text, the end included. -/
def tokenize (rules : MacroRules) (text : String) : List Token :=
  placeTokens {} (lexemes rules text.toList)

theorem placeTokens_ne_nil (p : Position) (ls : List Lexeme) :
    placeTokens p ls ≠ [] := by
  induction ls generalizing p with
  | nil => simp [placeTokens]
  | cons l ls ih => simp [placeTokens, ih]

/-- A text that is joined of parts is read from the characters of the parts,
each of which can be looked at by itself. -/
theorem tokenize_intercalate (rules : MacroRules) (sep : String)
    (parts : List String) :
    tokenize rules (sep.intercalate parts)
      = placeTokens {}
        (lexemes rules (sep.toList.intercalate (parts.map String.toList))) := by
  rw [tokenize, String.toList_intercalate]

end HeaderBinding
