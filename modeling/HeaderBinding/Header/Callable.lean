/-
Reading functions, variables and their parameters.

* `splitParameter`: the name and the type in the tokens of a parameter;
* `functionBody`: a function or a variable, from its first token on;
* `looksLikeFunction`: a parenthesis opens before the statement ends.
-/
import HeaderBinding.Header.TypeRun

namespace HeaderBinding

/-! ### Parameters -/

/-- The words of the types of C, which name no parameter. -/
def typeWordsOfC : List String :=
  ["int", "long", "short", "char", "double", "float", "signed", "unsigned"]

/-- The kinds one of which a type has before the name. -/
def typeWordKinds : List TokenKind :=
  [.identifier, .kwVoid, .asterisk]

/-- The texts of some tokens. -/
def tokenValues (ts : List Token) : List String :=
  ts.map (·.value)

/-- The place where a parenthesis, a star or a caret and a name stand side
by side: the tokens before it, mark and name, and the tokens from three
behind on, of which the first closes the parenthesis. -/
def cutCallable : List Token →
    Option (List Token × Token × Token × List Token)
  | o :: m :: n :: ts =>
    if o.kind = .openParen ∧ (m.kind = .asterisk ∨ m.kind = .caret)
        ∧ n.kind = .identifier then some ([], m, n, ts)
    else
      (cutCallable (m :: n :: ts)).map fun c => (o :: c.1, c.2)
  | _ => none

/-- The last token names the parameter: it is an identifier behind a type
and no word of a type itself. -/
def lastNamesParameter (ts : List Token) : Bool :=
  ts.dropLast.any (typeWordKinds.contains ·.kind)
    && ts.getLast?.any fun t =>
      t.kind = .identifier && !nullabilityWords.contains t.value
        && !typeWordsOfC.contains t.value

/-- A parameter with a type of the given pieces. -/
def parameterOf (name : String) (pieces : List String) : Parameter :=
  let type := joinTypeText pieces
  ⟨name, type, hasNullableMarker type.toList⟩

/-- The name and the type of a parameter.  The name of a block or a
function pointer stands inside its type. -/
def splitParameter (ts : List Token) : Parameter :=
  match cutCallable ts with
  | some (before, mark, name, after) =>
    { name := name.value
      type := joinTypeText
        (tokenValues before ++ ["(", mark.value, ")"]
          ++ tokenValues after.tail)
      nullable :=
        hasNullableMarker (" ".intercalate (tokenValues ts)).toList }
  | none =>
    if lastNamesParameter ts then
      parameterOf ((ts.getLast?.map (·.value)).getD "")
        (tokenValues ts.dropLast)
    else parameterOf "" (tokenValues ts)

/-- The tokens of a parameter, up to a comma or a closing parenthesis
outside inner parentheses, which are `depth` deep. -/
def parameterTokens : Nat → List Token → List Token × List Token
  | _, [] => ([], [])
  | depth, t :: ts =>
    if t.kind = .endOfInput
        ∨ (depth = 0 ∧ (t.kind = .comma ∨ t.kind = .closeParen)) then
      ([], t :: ts)
    else
      let r := parameterTokens
        (if t.kind = .openParen then depth + 1
         else if t.kind = .closeParen then depth - 1 else depth) ts
      (t :: r.1, r.2)

/-- A parameter of a function and the comma behind it. -/
def functionParameter : Production (Option Parameter) := do
  if ← look fun ts => headIn [.closeParen, .ellipsis] ts || atEnd ts then
    return none
  else
    let tokens ← scan (parameterTokens 0)
    let _ ← accept .comma
    return some (splitParameter tokens)

/-- The next tokens say that there are no parameters. -/
def saysVoid (ts : List Token) : Bool :=
  headIs .kwVoid ts && kindAt 1 ts = .closeParen

/-- The parameters of a function; an ellipsis ends them. -/
def functionParameters : Production (List Parameter) := do
  if ← look saysVoid then
    skip step
    return []
  else
    let named ← repeated functionParameter
    if ← accept .ellipsis then
      return named ++ [⟨restName, "...", false⟩]
    else return named

/-! ### Pieces of a declaration -/

/-- A piece of a declaration: a token, or a group in angle brackets, which
has no kind. -/
structure Piece where
  text : String
  kind? : Option TokenKind
deriving DecidableEq, Repr

/-- The pieces before the first token that `stop` accepts together with
what follows it. -/
def piecesUntil (stop : List Token → Bool) (ts : List Token) :
    List Piece × List Token :=
  match ts with
  | [] => ([], [])
  | t :: rest =>
    if t.kind = .endOfInput ∨ stop (t :: rest) then ([], t :: rest)
    else
      let piece := readPiece t rest
      let r := piecesUntil stop piece.2.1
      (⟨piece.1, if piece.2.2 then none else some t.kind⟩ :: r.1, r.2)
termination_by ts.length
decreasing_by
  have := length_readPiece_le t rest
  simp
  omega

/-- The canonical text of some pieces. -/
def piecesText (ps : List Piece) : String :=
  joinTypeText (ps.map (·.text))

/-! ### Functions -/

/-- The kinds that may stand before a function. -/
def functionPrefixes : List TokenKind :=
  [.kwExtern, .kwStatic, .kwInline]

/-- The keywords before a function. -/
structure FunctionMarks where
  /-- One of them is not `extern`. -/
  isInline : Bool := false
  /-- A string follows: they open a linkage block. -/
  linkage : Bool := false

/-- The keywords before a function, and what follows them. -/
def functionMarks : List Token → FunctionMarks × List Token
  | [] => ({}, [])
  | t :: ts =>
    if functionPrefixes.contains t.kind then
      let own := decide (t.kind ≠ .kwExtern)
      if headIs .string ts then ({ isInline := own, linkage := true }, ts.tail)
      else
        let r := functionMarks ts
        ({ r.1 with isInline := own || r.1.isInline }, r.2)
    else ({}, t :: ts)

/-- The kinds at which a function declaration goes astray. -/
def strayKinds : List TokenKind :=
  containerMarks ++ [.openBrace, .closeBrace]

/-- The pieces before the parameter list or the end of the statement. -/
def declarationHead : Production (List Piece) := do
  let pieces ← scan (piecesUntil
    (headIn ([.openParen, .semicolon] ++ strayKinds)))
  if ← look (headIn strayKinds) then
    throw (.strayToken (← look nextToken))
  return pieces

/-- The name that the last piece is, and the text of the others.  A group
in angle brackets counts as a name. -/
def nameAndType? (ps : List Piece) : Option (String × String) :=
  match ps.getLast? with
  | some p =>
    if 2 ≤ ps.length ∧ p.kind?.all (· = .identifier) then
      some (p.text, piecesText ps.dropLast)
    else none
  | none => none

/-- The body of a function in braces, if there is one. -/
def functionBlock : Production Bool := do
  if ← accept .openBrace then
    skip (skipGroup .openBrace .closeBrace 1)
    return true
  else return false

/-- What follows the head of a declaration: the parameters, or nothing if
a variable is declared. -/
def functionRest (name type : String) (isInline : Bool) :
    Production Function := do
  if ← accept .openParen then
    let parameters ← functionParameters
    let _ ← expect .closeParen .functionParametersClose
    let defined ← functionBlock
    let _ ← accept .semicolon
    return {
      name, returnType := type, parameters
      isInline := isInline || defined }
  else
    skip skipStatement
    return { name, returnType := type, hasParameterList := false, isInline }

/-- A function or a variable from its first token on.  Nothing comes of a
linkage block and of a statement that declares no name. -/
def functionBody : Production (List Function) := do
  let marks ← scan functionMarks
  if marks.linkage then
    let _ ← accept .openBrace
    return []
  else
    let pieces ← declarationHead
    match nameAndType? pieces with
    | none =>
      skip skipStatement
      return []
    | some (name, type) => return [← functionRest name type marks.isInline]

/-- The number of tokens looked at for the parenthesis of a function. -/
def functionWindow : Nat := 30

/-- The kinds before which a function has its parenthesis. -/
def functionStops : List TokenKind :=
  [.semicolon, .openBrace, .atInterface, .atProtocol, .atEnd]

/-- A parenthesis opens before the statement ends, not too far off. -/
def looksLikeFunction (ts : List Token) : Bool :=
  ((ts.take functionWindow).find? fun t =>
    t.kind = .openParen || functionStops.contains t.kind).any
      (·.kind = .openParen)

end HeaderBinding
