/-
The C# type that an Objective-C type is mapped to.

The map goes by steps.  Each step either ends in a C# type or leads to a
simpler type, with something to put before and behind what that one is
mapped to: a pointer to a pointer leads to the pointer, an alias to what
it stands for, a collection to its elements.

* `mapStep`: one step;
* `mapWithin`: at most so many steps;
* `mapType?`: the C# type, if the steps come to an end; they are bounded by
  what the text and the aliases can lead to, which only types that lead to
  themselves exceed;
* `mapType`: the C# type of a type that has one.
-/
import HeaderBinding.Mapping.Context
import HeaderBinding.Mapping.Tables

namespace HeaderBinding

/-- The outcome of a step. -/
inductive MapStep
  /-- The C# type. -/
  | done (text : String)
  /-- The C# type of `type`, between two texts. -/
  | again (before : String) (type : List Char) (behind : String)
deriving DecidableEq, Repr

/-- The name of the delegate for a block type: `Block` at its end becomes
`Handler`. -/
def delegateName (name : String) : String :=
  let cs := name.toList
  let suffix := "Block".toList
  if suffix.isSuffixOf cs ∧ suffix.length < cs.length then
    String.ofList (cs.take (cs.length - suffix.length)) ++ "Handler"
  else name

/-- The C# spelling of a pointer that is not safe. -/
def unsafePointer (target : String) : String :=
  "unsafe " ++ target ++ "*"

/-- The name of the interface for a protocol. -/
def protocolInterface (arg : List Char) : String :=
  "I" ++ String.ofList (baseOf arg)

/-- The class of the elements of a collection, which must be an object. -/
def elementClass (ctx : TypeContext) (arg : List Char) : String :=
  let base := baseOf arg
  if base = "id".toList ∨ "id<".toList.isPrefixOf base then "NSObject"
  else
    let name := String.ofList
      (if base.contains '<' then (splitGeneric base).1 else base)
    let name := if ctx.isAlias name then ctx.resolve name else name
    if name = "NSString" then "NSString"
    else
      let mapped := (objectTypes.lookup name).getD name
      if "[]".toList.isSuffixOf mapped.toList then "NSObject" else mapped

/-- A type with arguments in angle brackets. -/
def mapGeneric (ctx : TypeContext) (base : List Char) (depth : Nat) :
    MapStep :=
  let parts := splitGeneric base
  let name := String.ofList parts.1
  let plain := MapStep.again ""
    (parts.1 ++ if depth = 0 then [] else [' ', '*']) ""
  match parts.2 with
  | [] =>
    if name = "id" then .done "NSObject"
    else if name = "Class" then .done "Class"
    else plain
  | arg :: more =>
    if name = "id" then .done (protocolInterface arg)
    else if name = "Class" then .done "Class"
    else if arrayCollections.contains name then .again "" arg "[]"
    else if keyedCollections.contains name ∧ more.length = 1 then
      .done (name ++ "<" ++ elementClass ctx arg ++ ", "
        ++ elementClass ctx (more.headD []) ++ ">")
    else if setCollections.contains name then
      .done (name ++ "<" ++ elementClass ctx arg ++ ">")
    else if !collectionTypes.contains name && !arg.contains '*' then
      .done (protocolInterface arg)
    else plain

/-- A named type that is no alias. -/
def mapNamed (ctx : TypeContext) (self? : Option String) (hadConst : Bool)
    (base : List Char) (depth : Nat) : MapStep :=
  let name := String.ofList base
  if name = "instancetype" then
    .done (match self? with
      | some self => if self = "" then "NSObject" else self
      | none => "NSObject")
  else if name = "char" ∧ 0 < depth then
    .done (if hadConst then "string" else unsafePointer "sbyte")
  else if name = "void" ∧ 0 < depth then .done "IntPtr"
  else
    match primitiveTypes.lookup name with
    | some target =>
      .done (if 0 < depth ∧ valueTypes.contains target then
        unsafePointer target else target)
    | none =>
      match objectTypes.lookup name with
      | some target => .done target
      | none =>
        if base.contains '<' then mapGeneric ctx base depth
        else if 0 < depth
            ∧ (ctx.structs.contains name ∨ ctx.enums.contains name) then
          .done (unsafePointer name)
        else .done (delegateName name)

/-- A type text of a name and some stars. -/
def pointerTo (base : List Char) (depth : Nat) : List Char :=
  base ++ if depth = 0 then [] else ' ' :: List.replicate depth '*'

/-- An alias that does not stand for itself. -/
def mapAlias? (ctx : TypeContext) (hadConst : Bool) (base : List Char)
    (depth : Nat) : Option MapStep :=
  let name := String.ofList base
  if ctx.isAlias name then
    let text := (ctx.resolveText name).toList
    let target := splitPointers (stripQualifiers text)
    if target.1 = base then none
    else if isBlockText text then some (.done "Action")
    else
      let isConst :=
        isConstQualified (text.takeWhile (· ≠ '*')) || hadConst
      some (.again ""
        ((if isConst then "const ".toList else [])
          ++ pointerTo target.1 (depth + target.2)) "")
  else none

/-- A type that is no callable: its name and the number of its stars. -/
def mapPointer (ctx : TypeContext) (self? : Option String)
    (hadConst : Bool) (base : List Char) (depth : Nat) : MapStep :=
  let name := String.ofList base
  if 2 ≤ depth then .again "out " (pointerTo base 1) ""
  else if ctx.blocks.contains name then .done (delegateName name)
  else if ctx.functionPointers.contains name then .done "IntPtr"
  else
    match mapAlias? ctx hadConst base depth with
    | some r => r
    | none => mapNamed ctx self? hadConst base depth

/-- One step of the map. -/
def mapStep (ctx : TypeContext) (self? : Option String)
    (cs : List Char) : MapStep :=
  if allBlank cs then .done "void"
  else if trim cs = "...".toList then .done "IntPtr"
  else
    let text := stripQualifiers cs
    if isBlockText text then .done "Action"
    else if isFunctionPointerText text then .done "IntPtr"
    else
      let target := splitPointers text
      mapPointer ctx self? ("const ".toList.isPrefixOf (trim cs))
        target.1 target.2

/-- The C# type, if it is reached in at most so many steps. -/
def mapWithin (ctx : TypeContext) (self? : Option String) :
    Nat → List Char → Option String
  | 0, _ => none
  | steps + 1, cs =>
    match mapStep ctx self? cs with
    | .done text => some text
    | .again before type behind =>
      (mapWithin ctx self? steps type).map (before ++ · ++ behind)

/-- A number of steps that no type needs unless it leads to itself: an
alias is met a few times at most on the way, and each character of the
type and of what the aliases stand for takes a few steps. -/
def stepBound (ctx : TypeContext) (cs : List Char) : Nat :=
  12 * (6 + cs.length
    + ctx.aliases.foldl (fun n a => n + 6 + a.2.toList.length) 0)

/-- The C# type of an Objective-C type; a type that leads to itself has
none. -/
def mapType? (ctx : TypeContext) (self? : Option String) (type : String) :
    Option String :=
  mapWithin ctx self? (stepBound ctx type.toList) type.toList

/-- The C# type of a type that has one.  What it is for others does not
matter: the declarations of a header are made only if all types in them
have one. -/
def mapType (ctx : TypeContext) (self? : Option String) (type : String) :
    String :=
  (mapType? ctx self? type).getD ""

/-! ### Types of enumerations -/

/-- The type that an enumeration is stored in. -/
def mapEnumBacking (backing? : Option String) : String :=
  match backing? with
  | some text =>
    (enumBackingTypes.lookup (String.ofList (squeeze text.toList))).getD
      "uint"
  | none => "uint"

/-- The enumeration is as wide as a machine word. -/
def isNativeEnum (backing? : Option String) : Bool :=
  backing?.any fun text =>
    nativeBackingTypes.contains (String.ofList (squeeze text.toList))

end HeaderBinding
