/-
Reading the members of classes and protocols.

* `propertyBody`: a property behind its keyword;
* `methodBody`: a method behind its sign.
-/
import HeaderBinding.Header.TypeRun

namespace HeaderBinding

/-! ### Properties -/

/-- An attribute of a property: a name, or a name with a value, which may
end in a colon. -/
def propertyAttribute : Production (Option String) := do
  if ← look (headIn [.identifier, .kwConst]) then
    let name := (← advance).value
    if ← accept .equals then
      let value := (← advance).value
      if ← accept .colon then return some (name ++ "=" ++ value ++ ":")
      else return some (name ++ "=" ++ value)
    else return some name
  else return none

/-- The attributes of a property in parentheses, if there are any. -/
def propertyAttributes : Production (List String) := do
  if ← accept .openParen then
    let attributes ← commaSeparated propertyAttribute
    let _ ← expect .closeParen .attributesClose
    return attributes.filterMap id
  else return []

/-- The next tokens open a block type. -/
def opensBlock (ts : List Token) : Bool :=
  headIs .openParen ts && kindAt 1 ts = .caret

/-- The name and the type of a block property, behind the type that the
block returns; and whether it is marked nullable beside its caret. -/
def blockProperty (result : String) :
    Production (String × String × Bool) := do
  skip (List.drop 2)
  let marked ← look (headIsWord nullableMarkers)
  if ← look (headIsWord nullabilityWords) then skip step
  let name ← expectIdentifier .blockPropertyName
  let _ ← expect .closeParen .blockNameClose
  let parameters ←
    if ← accept .openParen then scan parameterText else pure ""
  return (name, result ++ " (^)(" ++ parameters ++ ")", marked)

/-- The name and the type of a property; and whether it is a block that is
marked nullable. -/
def propertyNameAndType : Production (String × String × Bool) := do
  let type ← scan typeText
  if ← look opensBlock then blockProperty type
  else return (← expectIdentifier .propertyName, type, false)

/-- A property behind its keyword. -/
def propertyBody (inScope : Bool) : Production Property := do
  let attributes ← propertyAttributes
  let (name, type, marked) ← propertyNameAndType
  let _ ← accept .semicolon
  return {
    name, type, attributes
    nullable := attributes.any nullableMarkers.contains || marked
      || typeIsNullable type
    inNonnullScope := inScope }

/-! ### Methods -/

/-- The macros that may stand behind a method. -/
def methodMacros : List String :=
  ["NS_DESIGNATED_INITIALIZER", "NS_REQUIRES_SUPER"]

/-- The keywords that may label a segment of a selector. -/
def labelKeywords : List TokenKind :=
  [.kwVoid, .kwConst, .kwStruct, .kwEnum, .kwUnion]

/-- The next token may label a segment of a selector. -/
def startsLabel (ts : List Token) : Bool :=
  (headIs .identifier ts && !headIsWord methodMacros ts)
    || headIn labelKeywords ts

@[simp]
theorem startsLabel_nil : startsLabel [] = false :=
  rfl

/-- A label is an identifier that is no macro behind a method, or one of the
keywords. -/
theorem startsLabel_cons_iff {t : Token} {ts : List Token} :
    startsLabel (t :: ts) = true
      ↔ (t.kind = .identifier ∧ t.value ∉ methodMacros)
        ∨ t.kind ∈ labelKeywords := by
  by_cases hk : t.kind = .identifier <;> simp [startsLabel, hk]

/-- A parameter of a method behind the colon. -/
def methodParameter : Production Parameter := do
  let type ← parenthesizedType .parameterTypeClose
  let name ← identifierOrEmpty
  return ⟨name, type, typeIsNullable type⟩

/-- A further segment of a selector, which may lack its label. -/
def furtherSegment : Production (Option (String × Parameter)) := do
  if ← look fun ts => startsLabel ts && kindAt 1 ts = .colon then
    let label := (← advance).value
    skip step
    return some (label ++ ":", ← methodParameter)
  else if ← accept .colon then return some (":", ← methodParameter)
  else return none

/-- The next tokens are a comma and an ellipsis. -/
def opensVariadicTail (ts : List Token) : Bool :=
  headIs .comma ts && kindAt 1 ts = .ellipsis

/-- The segments of a selector behind its first label, which `label` is.
A variadic tail is no part of the selector. -/
def selectorSegments (label : String) :
    Production (List (String × Parameter)) := do
  let first ← methodParameter
  let others ← repeated furtherSegment
  if ← look opensVariadicTail then skip (List.drop 2)
  return (label ++ ":", first) :: others

/-- The macros behind a method, and what follows. -/
def trailingMacros : List Token → List String × List Token
  | [] => ([], [])
  | t :: ts =>
    if t.kind = .identifier ∧ methodMacros.contains t.value then
      let r := trailingMacros ts
      (t.value :: r.1, r.2)
    else ([], t :: ts)

/-- A method behind its sign. -/
def methodBody (inScope : Bool) : Production Method := do
  let type ← parenthesizedType .returnTypeClose
  if ← look fun ts => !startsLabel ts then
    throw (.noSelector (← look nextToken))
  let label := (← advance).value
  let segments ←
    if ← accept .colon then selectorSegments label else pure []
  let macros ← scan trailingMacros
  let _ ← accept .semicolon
  return {
    selector :=
      if segments.isEmpty then label else String.join (segments.map (·.1))
    returnType := type
    parameters := segments.map (·.2)
    inNonnullScope := inScope
    returnNullable := typeIsNullable type
    designated := macros.contains "NS_DESIGNATED_INITIALIZER" }

end HeaderBinding
