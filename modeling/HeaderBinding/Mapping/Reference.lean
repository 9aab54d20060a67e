/-
Which types can carry a reference to no object.

* `referenceStep`, `isObjectReference?`: whether the type is that of an
  object, a block or a class, if the steps come to an end;
* `isObjectReference`: the answer for a type that has one;
* `isErrorOut`: the type of a parameter through which an error comes back.
-/
import HeaderBinding.Mapping.Mapped

namespace HeaderBinding

/-- The outcome of a step: the answer, or the type that decides it. -/
inductive ReferenceStep
  | done (answer : Bool)
  | again (type : List Char)
deriving DecidableEq, Repr

/-- The names that always stand for a reference. -/
def referenceNames : List String :=
  ["id", "instancetype", "Class"]

/-- A named type that is no alias. -/
def namedIsReference (ctx : TypeContext) (base : List Char)
    (depth : Nat) : Bool :=
  let name := String.ofList
    (if base.contains '<' then (splitGeneric base).1 else base)
  if referenceNames.contains name then depth ≤ 1
  else
    depth = 1 && !(primitiveTypes.lookup name).isSome
      && !ctx.structs.contains name && !ctx.enums.contains name

/-- One step. -/
def referenceStep (ctx : TypeContext) (cs : List Char) :
    ReferenceStep :=
  let text := stripQualifiers cs
  if text.isEmpty ∨ text = "...".toList then .done false
  else if isBlockText text then .done true
  else if isFunctionPointerText text then .done false
  else
    let base := (splitPointers text).1
    let depth := (splitPointers text).2
    let name := String.ofList base
    if ctx.blocks.contains name then .done true
    else if ctx.isAlias name then
      let target := splitPointers
        (stripQualifiers (ctx.resolveText name).toList)
      if target.1 = base then .done (namedIsReference ctx base depth)
      else .again (pointerTo target.1 (depth + target.2))
    else .done (namedIsReference ctx base depth)

/-- The answer, if it is reached in at most so many steps. -/
def referenceWithin (ctx : TypeContext) :
    Nat → List Char → Option Bool
  | 0, _ => none
  | steps + 1, cs =>
    match referenceStep ctx cs with
    | .done answer => some answer
    | .again type => referenceWithin ctx steps type

/-- Whether the type can carry a reference to no object; for a type that
leads to itself there is no answer. -/
def isObjectReference? (ctx : TypeContext) (type : String) : Option Bool :=
  referenceWithin ctx (stepBound ctx type.toList) type.toList

/-- The type can carry a reference to no object, if there is an answer. -/
def isObjectReference (ctx : TypeContext) (type : String) : Bool :=
  (isObjectReference? ctx type).getD false

/-- An error comes back through a parameter of the type. -/
def isErrorOut (type : String) : Bool :=
  let target := splitPointers (stripQualifiers type.toList)
  target.1 = "NSError".toList && 2 ≤ target.2

end HeaderBinding
