/-
The canonical spelling of types and of value expressions.

* `joinTypeText`: the words and marks of a type, with a space only where
  it is customary;
* `joinExpression`: the tokens of an expression, where signs stay with
  their operand and shift operators in one piece.
-/
import HeaderBinding.Token.Basic

namespace HeaderBinding

/-! ### Types -/

/-- A space stands between a text that ends in `prev` and the piece. -/
def spacedAfter (prev : Char) (piece : List Char) : Bool :=
  if piece = ['*'] then !(['*', '(', '^'].contains prev)
  else
    !(['>', ',', ')', ']', '['].any (piece = [·])
      || piece.head? = some '<'
      || ['<', '(', '['].contains prev
      || (piece = ['('] && prev = ')'))

/-- The pieces, joined to a text that ends in `prev`; empty pieces do not
count. -/
def joinPiecesAfter : Option Char → List (List Char) → List Char
  | _, [] => []
  | prev, piece :: pieces =>
    match piece.getLast? with
    | none => joinPiecesAfter prev pieces
    | some last =>
      (if prev.any (spacedAfter · piece) then ' ' :: piece else piece)
        ++ joinPiecesAfter (some last) pieces

/-- The canonical text of a type, from its words and marks. -/
def joinTypeText (pieces : List String) : String :=
  String.ofList (joinPiecesAfter none (pieces.map String.toList))

/-! ### Expressions -/

/-- The two tokens are halves of a shift operator. -/
def touchingAngles (a b : Token) : Bool :=
  (b.kind = .openAngle || b.kind = .closeAngle) && a.kind = b.kind
    && a.line = b.line && a.column + 1 = b.column

/-- The texts of the tokens, those of touching angle brackets in one
piece. -/
def expressionPieces : List Token → List String
  | [] => []
  | [t] => [t.value]
  | t :: u :: ts =>
    match expressionPieces (u :: ts) with
    | [] => [t.value]
    | p :: ps =>
      if touchingAngles t u then (t.value ++ p) :: ps
      else t.value :: p :: ps

/-- Operators that may stand before a single operand. -/
def unaryOperators : List String :=
  ["-", "~", "!", "+"]

/-- Pieces after which a sign belongs to what follows. -/
def operatorPieces : List String :=
  ["(", "=", "|", "&", "<<", ">>", "+", "-", "*", "/", "%", "~", "!", ","]

/-- The pieces after `prev`, which `before` precedes, if anything does. -/
def joinExpressionAfter (before : Option String) (prev : String) :
    List String → String
  | [] => ""
  | p :: ps =>
    let sign := unaryOperators.contains prev
      && before.all operatorPieces.contains
    (if prev == "(" || p == ")" || sign then p else " " ++ p)
      ++ joinExpressionAfter (some prev) p ps

/-- The text of an expression; it is not evaluated. -/
def joinExpression (ts : List Token) : String :=
  match expressionPieces ts with
  | [] => ""
  | p :: ps => p ++ joinExpressionAfter none p ps

end HeaderBinding
