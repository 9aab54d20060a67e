/-
Reading types.

* `readAngles`: a group in angle brackets, as one piece of text;
* `typeText`: a type where a name follows, as in a property or a field;
* `typeInParens`: a type up to the parenthesis that closes it;
* `parameterText`: the parameters of a block or function pointer, with
  the parenthesis that closes them;
* `identifierList`: names with commas between them.
-/
import HeaderBinding.Header.Cursor
import HeaderBinding.Header.Spelling
import HeaderBinding.Header.Nullability

namespace HeaderBinding

/-! ### Groups in angle brackets -/

/-- The texts of the tokens up to and with the angle bracket that closes
the group, and what follows. -/
def angleTail : Nat → List Token → List String × List Token
  | 0, ts => ([], ts)
  | _ + 1, [] => ([], [])
  | depth + 1, t :: ts =>
    if t.kind = .endOfInput then ([], t :: ts)
    else
      let r := angleTail
        (if t.kind = .openAngle then depth + 2
         else if t.kind = .closeAngle then depth else depth + 1) ts
      (t.value :: r.1, r.2)

theorem length_angleTail_le (depth : Nat) (ts : List Token) :
    (angleTail depth ts).2.length ≤ ts.length := by
  fun_induction angleTail depth ts <;> simp_all +zetaDelta
  omega

/-- A group in angle brackets, whose opening bracket is `t`, in its
canonical spelling. -/
def readAngles (t : Token) (ts : List Token) : String × List Token :=
  let r := angleTail 1 ts
  (joinTypeText (t.value :: r.1), r.2)

/-- The token `t`, or the whole group that it opens, as one piece; what
follows; and whether it is a group. -/
def readPiece (t : Token) (ts : List Token) :
    String × List Token × Bool :=
  if t.kind = .openAngle then
    let r := readAngles t ts
    (r.1, r.2, true)
  else (t.value, ts, false)

theorem length_readPiece_le (t : Token) (ts : List Token) :
    (readPiece t ts).2.1.length ≤ ts.length := by
  unfold readPiece
  split
  · exact length_angleTail_le 1 ts
  · simp

/-- A group in angle brackets, if one opens next. -/
def anglesHere (ts : List Token) : List String × List Token :=
  match ts with
  | t :: rest =>
    if t.kind = .openAngle then
      let r := readAngles t rest
      ([r.1], r.2)
    else ([], ts)
  | [] => ([], ts)

theorem length_anglesHere_le (ts : List Token) :
    (anglesHere ts).2.length ≤ ts.length := by
  unfold anglesHere
  split
  · split
    · exact Nat.le_succ_of_le (length_angleTail_le 1 _)
    · simp
  · simp

/-- Inside a group in angle brackets, `depth` deep, a pointer comes before
the group or the statement ends. -/
def pointerInAngles : Nat → List Token → Bool
  | _, [] => false
  | depth, t :: ts =>
    if t.kind = .openAngle then pointerInAngles (depth + 1) ts
    else if t.kind = .closeAngle then
      depth ≠ 1 && pointerInAngles (depth - 1) ts
    else if t.kind = .asterisk then true
    else if t.kind = .semicolon ∨ t.kind = .endOfInput
        ∨ t.kind = .atEnd then false
    else pointerInAngles depth ts

/-- A token of one of the kinds follows the group in angle brackets,
`depth` deep. -/
def anglesFollowedBy (kinds : List TokenKind) : Nat → List Token → Bool
  | _, [] => false
  | depth, t :: ts =>
    if t.kind = .openAngle then anglesFollowedBy kinds (depth + 1) ts
    else if t.kind = .closeAngle then
      if depth = 1 then headIn kinds ts
      else anglesFollowedBy kinds (depth - 1) ts
    else if t.kind = .semicolon ∨ t.kind = .endOfInput
        ∨ t.kind = .atEnd then false
    else anglesFollowedBy kinds depth ts

/-! ### Types before a name -/

/-- The keywords that start a type. -/
def typeKeywords : List TokenKind :=
  [.kwConst, .kwStruct, .kwEnum, .kwUnion]

/-- The kinds that stand behind a name that is declared. -/
def nameFollowers : List TokenKind :=
  [.semicolon, .closeParen, .openBracket, .comma, .equals, .colon]

/-- The texts of the tokens at the start that are of one of the kinds. -/
def takeKinds (kinds : List TokenKind) :
    List Token → List String × List Token
  | [] => ([], [])
  | t :: ts =>
    if kinds.contains t.kind then
      let r := takeKinds kinds ts
      (t.value :: r.1, r.2)
    else ([], t :: ts)

/-- The words of a type, each with the group in angle brackets behind it.
A word that a mark follows is no part of the type but its name. -/
def typeWords (ts : List Token) : List String × List Token :=
  match ts with
  | [] => ([], [])
  | t :: rest =>
    if t.kind = .identifier ∨ t.kind = .kwVoid then
      let g := anglesHere rest
      if headIs .identifier g.2 ∧ kindAt 1 g.2 ∈ nameFollowers then
        (t.value :: g.1, g.2)
      else
        let r := typeWords g.2
        (t.value :: (g.1 ++ r.1), r.2)
    else ([], ts)
termination_by ts.length
decreasing_by
  have := length_anglesHere_le rest
  simp
  omega

/-- The stars of a pointer type, and the `const` behind a star; the piece
before it is `prev`. -/
def pointerMarks (prev : Option String) :
    List Token → List String × List Token
  | [] => ([], [])
  | t :: ts =>
    if t.kind = .asterisk ∨ (t.kind = .kwConst ∧ prev = some "*") then
      let r := pointerMarks (some t.value) ts
      (t.value :: r.1, r.2)
    else ([], t :: ts)

/-- The pieces of a type that a name follows. -/
def typePieces (ts : List Token) : List String × List Token :=
  let k := takeKinds typeKeywords ts
  let w := typeWords k.2
  let p := pointerMarks (k.1 ++ w.1).getLast? w.2
  let n := if headIsWord nullabilityWords p.2 then
      ([(nextToken p.2).value], p.2.tail)
    else ([], p.2)
  (k.1 ++ w.1 ++ p.1 ++ n.1, n.2)

/-- A type that a name follows. -/
def typeText (ts : List Token) : String × List Token :=
  let r := typePieces ts
  (joinTypeText r.1, r.2)

/-! ### Types in parentheses -/

/-- The pieces up to the parenthesis that closes the type, which stays;
inner parentheses are `depth` deep. -/
def piecesInParens (depth : Nat) (ts : List Token) :
    List String × List Token :=
  match ts with
  | [] => ([], [])
  | t :: rest =>
    if t.kind = .endOfInput ∨ (t.kind = .closeParen ∧ depth = 0) then
      ([], ts)
    else
      let piece := readPiece t rest
      let r := piecesInParens
        (if t.kind = .openParen then depth + 1
         else if t.kind = .closeParen then depth - 1 else depth) piece.2.1
      (piece.1 :: r.1, r.2)
termination_by ts.length
decreasing_by
  have := length_readPiece_le t rest
  simp
  omega

/-- A type up to the parenthesis that closes it. -/
def typeInParens (ts : List Token) : String × List Token :=
  let r := piecesInParens 0 ts
  (joinTypeText r.1, r.2)

/-- The text of a parameter list, with the parenthesis that closes it. -/
def parameterText (ts : List Token) : String × List Token :=
  let r := piecesInParens 0 ts
  (joinTypeText r.1, step r.2)

/-- A type in parentheses, if one opens next; else `id`. -/
def parenthesizedType (due : Expectation) : Production String := do
  if ← accept .openParen then
    let text ← scan typeInParens
    let _ ← expect .closeParen due
    return text
  else return "id"

/-! ### Names -/

/-- Names with commas between them, up to a token of the kind.  Directives
between them do not count. -/
def identifierList (stop : TokenKind) :
    List Token → List String × List Token
  | [] => ([], [])
  | t :: ts =>
    if t.kind = stop then ([], t :: ts)
    else if t.kind = .directive ∨ t.kind = .comma then
      identifierList stop ts
    else if t.kind = .identifier then
      let r := identifierList stop ts
      (t.value :: r.1, r.2)
    else ([], t :: ts)

/-- The texts of the tokens before the first of one of the kinds. -/
def valuesUntil (stops : List TokenKind) :
    List Token → List String × List Token
  | [] => ([], [])
  | t :: ts =>
    if t.kind = .endOfInput ∨ stops.contains t.kind then ([], t :: ts)
    else
      let r := valuesUntil stops ts
      (t.value :: r.1, r.2)

end HeaderBinding
