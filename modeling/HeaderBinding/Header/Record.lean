/-
Reading structures.  Structures that are defined inside others are kept
too, each as soon as it ends, also when one around it cannot be read.

* `readStruct`: a structure or a union from its keyword on;
* `definesInPlace`: the keyword starts a definition.
-/
import HeaderBinding.Header.TypeRun

namespace HeaderBinding

/-- What reading part of a structure gives: the structures that ended
inside it, the part or the failure, and the tokens left. -/
structure RecordReading (α : Type) where
  nested : List StructDef := []
  result : Except Failure α
  rest : List Token

/-- The next token is a keyword that a body follows, or a name and a
body. -/
def definesInPlace (ts : List Token) : Bool :=
  kindAt 1 ts = .openBrace
    || (kindAt 1 ts = .identifier && kindAt 2 ts = .openBrace)

/-- The size of an array in brackets, if one opens next. -/
def arraySize : Production (Option String) := do
  if ← accept .openBracket then
    let size ← scan (valuesUntil [.closeBracket])
    let _ ← expect .closeBracket .arraySizeClose
    return some (String.join size)
  else return none

/-- One name that a field declaration gives, with the stars, array sizes
and width that belong to it alone. -/
def declarator (base : String) : Production StructField := do
  let stars ← scan (takeKinds [.asterisk])
  let name ← identifierOrEmpty
  let sizes ← repeated arraySize
  if ← accept .colon then
    let _ ← scan (valuesUntil [.comma, .semicolon, .closeBrace])
  return {
    name
    type := sizes.foldl (fun type size => type ++ " [" ++ size ++ "]")
      (joinTypeText (base :: stars.map fun _ => "*")) }

/-- The names that a field declaration gives to fields of the base
type. -/
def declarators (base : String) : Production (List StructField) := do
  let fields ← commaSeparated (declarator base)
  let _ ← accept .semicolon
  return fields

/-- The fields of one base type. -/
def fieldsOf (nested : List StructDef) (base : String)
    (ts : List Token) : RecordReading (List StructField) :=
  let r := (declarators base).run ts
  ⟨nested, r.1, r.2⟩

/-- The type of a field that the nested structure `s` gives. -/
def nestedTypeText (keyword : String) (s : StructDef) : String :=
  String.ofList (trim (keyword ++ " " ++ s.name).toList)

mutual

/-- The fields up to the closing brace or the end. -/
def readFieldGroups (ts : List Token) :
    RecordReading (List StructField) :=
  if headIs .closeBrace ts ∨ atEnd ts then ⟨[], .ok [], ts⟩
  else
    let g := readFieldGroup ts
    match g.result with
    | .error f => ⟨g.nested, .error f, g.rest⟩
    | .ok fields =>
      if g.rest.length < ts.length then
        let b := readFieldGroups g.rest
        ⟨g.nested ++ b.nested, (fields ++ ·) <$> b.result, b.rest⟩
      else ⟨g.nested, .ok fields, g.rest⟩
termination_by (ts.length, 2)

/-- One declaration of fields, or a token that starts none. -/
def readFieldGroup (ts : List Token) :
    RecordReading (List StructField) :=
  if headIs .directive ts then ⟨[], .ok [], ts.tail⟩
  else if headIn [.kwStruct, .kwUnion] ts && definesInPlace ts then
    let keyword := (nextToken ts).value
    let inner := readStruct ts
    match inner.result with
    | .error f => ⟨inner.nested, .error f, inner.rest⟩
    | .ok s =>
      let own := if s.name ≠ "" ∧ keyword = "struct" then [s] else []
      fieldsOf (inner.nested ++ own) (nestedTypeText keyword s) inner.rest
  else
    let base := typeText ts
    if base.1.isEmpty then ⟨[], .ok [], step base.2⟩
    else fieldsOf [] base.1 base.2
termination_by (ts.length, 1)

/-- A structure or a union from its keyword on; what stands behind its
closing brace is left. -/
def readStruct (ts : List Token) : RecordReading StructDef :=
  match ts with
  | [] => ⟨[], .ok ⟨"", []⟩, []⟩
  | _ :: rest =>
    let named := headIs .identifier rest
    let name := if named then (nextToken rest).value else ""
    let behind := if named then rest.tail else rest
    if headIs .openBrace behind then
      let body := readFieldGroups behind.tail
      match body.result with
      | .error f => ⟨body.nested, .error f, body.rest⟩
      | .ok fields =>
        let close := (expect .closeBrace .structBodyClose).run body.rest
        ⟨body.nested, (fun _ => ⟨name, fields⟩) <$> close.1, close.2⟩
    else ⟨[], .ok ⟨name, []⟩, behind⟩
termination_by (ts.length, 0)
decreasing_by
  apply Prod.Lex.left
  split <;> (simp only [List.length_tail, List.length_cons]; omega)

end

end HeaderBinding
