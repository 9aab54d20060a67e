/-
Reading enumerations.

* `enumBody`: an enumeration behind the keyword `enum`;
* `enumMacroBody`: one that a macro such as `NS_ENUM` declares.
-/
import HeaderBinding.Header.TypeRun

namespace HeaderBinding

/-- The macros that declare an enumeration. -/
def enumMacros : List String :=
  ["NS_ENUM", "NS_OPTIONS", "NS_CLOSED_ENUM", "NS_ERROR_ENUM"]

/-- The tokens of an expression up to one of the kinds outside
parentheses; directives do not count. -/
def expressionTokens (stops : List TokenKind) :
    Int → List Token → List Token × List Token
  | _, [] => ([], [])
  | depth, t :: ts =>
    if t.kind = .endOfInput ∨ (depth = 0 ∧ stops.contains t.kind) then
      ([], t :: ts)
    else if t.kind = .directive then expressionTokens stops depth ts
    else
      let r := expressionTokens stops
        (if t.kind = .openParen then depth + 1
         else if t.kind = .closeParen then depth - 1 else depth) ts
      (t :: r.1, r.2)

/-- The value of a name of an enumeration, as it is written. -/
def enumValue (ts : List Token) : String × List Token :=
  let r := expressionTokens [.comma, .closeBrace] 0 ts
  (joinExpression r.1, r.2)

/-- What follows from the next name, closing brace or end on. -/
def toNextCase : List Token → List Token
  | [] => []
  | t :: ts =>
    if t.kind = .endOfInput ∨ t.kind = .identifier
        ∨ t.kind = .closeBrace then t :: ts
    else toNextCase ts

/-- A name of an enumeration, with its value and the comma behind it.
What cannot start a name is passed over. -/
def enumCase : Production (Option EnumCase) := do
  skip toNextCase
  match ← identifier? with
  | none => return none
  | some name =>
    let value? ←
      if ← accept .equals then some <$> scan enumValue else pure none
    let _ ← accept .comma
    return some ⟨name, value?⟩

/-- The names of an enumeration in braces, if a brace opens next. -/
def enumCases : Production (List EnumCase) := do
  if ← accept .openBrace then
    let cases ← repeated enumCase
    let _ ← expect .closeBrace .enumBodyClose
    return cases
  else return []

/-- An enumeration behind its keyword. -/
def enumBody : Production EnumDef := do
  if ← look fun ts => headIs .kwStruct ts
      || headIsWord ["class", "struct"] ts then skip step
  let name? ←
    if ← look (headIsWord enumMacros) then pure none else identifier?
  let backing? ←
    if ← accept .colon then
      let pieces ← scan (valuesUntil [.openBrace, .semicolon])
      pure (some (joinTypeText pieces))
    else pure none
  let cases ← enumCases
  let _ ← accept .semicolon
  return { name?, backing?, cases }

/-- The type behind the opening parenthesis of an enumeration macro. -/
def enumMacroType (word : String) : Production String := do
  if word = "NS_ERROR_ENUM" then
    skip step
    return "NSInteger"
  else return joinTypeText (← scan (valuesUntil [.comma, .closeParen]))

/-- An enumeration behind the macro `word`. -/
def enumMacroBody (word : String) : Production EnumDef := do
  let _ ← expect .openParen (.enumMacroOpen word)
  let backing ← enumMacroType word
  let _ ← expect .comma (.enumMacroComma word)
  let name ← expectIdentifier .enumName
  let _ ← expect .closeParen (.enumMacroClose word)
  let cases ← enumCases
  return {
    name? := some name
    backing? := some backing
    isOptions := word = "NS_OPTIONS"
    cases }

end HeaderBinding
