/-
The functions and variables of C.

* `Function.isConstant`: the declaration is that of a variable;
* `Function.describe`: a function as a header declares it;
* `bindFunction`, `bindConstant`: the members for them.
-/
import HeaderBinding.Binding.Slot

namespace HeaderBinding

/-- The declaration is that of a variable: it has no parameter list, or
an empty one behind a type that ends in `const`. -/
def Function.isConstant (f : Function) : Bool :=
  !f.hasParameterList
    || (f.parameters.isEmpty
      && "const".toList.isSuffixOf (trimRight f.returnType.toList))

/-- A parameter as a header declares it. -/
def Parameter.describe (p : Parameter) : String :=
  if p.name = restName then p.type
  else String.ofList (trim (p.type ++ " " ++ p.name).toList)

/-- A function as a header declares it. -/
def Function.describe (f : Function) : String :=
  "extern " ++ f.returnType ++ " " ++ f.name ++ " ("
    ++ ", ".intercalate (f.parameters.map Parameter.describe) ++ ");"

/-- The library that the symbols are looked for in. -/
def nativeLibrary : String := "__Internal"

/-- A parameter of a function, and whether its type is unsafe. -/
def bindArgument (ctx : TypeContext) (p : Parameter) (index : Nat) :
    BoundParameter × Bool :=
  if p.name = restName then (⟨"varArgs", "IntPtr", []⟩, false)
  else
    let type := bindType ctx none p.type
    (⟨parameterName p.name index, type.1, []⟩, type.2)

/-- The member for a function. -/
def bindFunction (ctx : TypeContext) (f : Function) : Member :=
  let type := bindType ctx none f.returnType
  let bound := f.parameters.mapIdx fun index p => bindArgument ctx p index
  { kind := .function
    name := f.name
    type := type.1
    attributes := [⟨"DllImport", [quoted nativeLibrary], none⟩]
    parameters := bound.map (·.1)
    isUnsafe := type.2 || bound.any (·.2)
    comment? := some f.describe }

/-- The name of the type of a variable, which an alias may stand for. -/
def constantBase (ctx : TypeContext) (type : String) : String :=
  let base := baseTypeName type
  if ctx.isAlias base then ctx.resolve base else base

/-- The C# type of a variable; a string keeps its class. -/
def constantType (ctx : TypeContext) (type : String) : String :=
  if constantBase ctx type = "NSString" then "NSString"
  else (bindType ctx none type).1

/-- The member for a variable. -/
def bindConstant (ctx : TypeContext) (f : Function) : Member :=
  { kind := .field
    name := f.name
    type := constantType ctx f.returnType
    attributes :=
      (if "Notification".toList.isSuffixOf f.name.toList then
        [⟨"Notification", [], none⟩] else [])
        ++ [⟨"Field", [quoted f.name, quoted nativeLibrary], none⟩]
    accessors := [⟨.get, []⟩]
    comment? :=
      some ("extern " ++ f.returnType ++ " " ++ f.name ++ ";") }

end HeaderBinding
