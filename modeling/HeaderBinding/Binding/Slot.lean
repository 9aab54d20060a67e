/-
The places of a declaration that hold a value: what type they get in C#,
and whether the value may be missing.

* `splitUnsafe`: a C# type without its mark, and whether it is unsafe;
* `isNullableSlot`: the value of a place may be missing;
* `bindParameters`: the parameters of a method;
* `argumentSemantic?`: how the value of a property is kept.
-/
import HeaderBinding.Binding.Basic
import HeaderBinding.Mapping.Reference
import HeaderBinding.Selector.MethodName

namespace HeaderBinding

/-- The mark of a type that is not safe. -/
def unsafeMark : String := "unsafe "

/-- The type without its mark, and whether it is unsafe. -/
def splitUnsafe (type : String) : String × Bool :=
  match unsafeMark.toList.isPrefixOf? type.toList with
  | some rest => (String.ofList rest, true)
  | none => (type, type.toList.contains '*')

/-- The C# type of an Objective-C type, and whether it is unsafe. -/
def bindType (ctx : TypeContext) (self? : Option String)
    (type : String) : String × Bool :=
  splitUnsafe (mapType ctx self? type)

/-- The value of a place may be missing: because it is marked so, or
because it is a reference outside the scopes in which none is missing. -/
def isNullableSlot (ctx : TypeContext) (type : String)
    (marked inNonnullScope : Bool) : Bool :=
  marked || (!inNonnullScope && isObjectReference ctx type)

/-- The argument for a parameter may be missing. -/
def isNullableParameter (ctx : TypeContext) (inNonnullScope : Bool)
    (p : Parameter) : Bool :=
  isErrorOut p.type || isNullableSlot ctx p.type p.nullable inNonnullScope

/-- The value of a property may be missing; one that is held weakly can
always go. -/
def Property.isNullableIn (p : Property) (ctx : TypeContext) : Bool :=
  isNullableSlot ctx p.type (p.nullable || p.hasAttribute "weak")
    p.inNonnullScope

/-- The name of a parameter, or its number if it has none. -/
def parameterName (name : String) (index : Nat) : String :=
  safeIdentifier (if name = "" then "arg" ++ toString index else name)

/-- A parameter of a method, and whether its type is unsafe. -/
def bindParameter (ctx : TypeContext) (self? : Option String)
    (inNonnullScope : Bool) (p : Parameter) (index : Nat) :
    BoundParameter × Bool :=
  let type := bindType ctx self? p.type
  (⟨parameterName p.name index, type.1,
    if isNullableParameter ctx inNonnullScope p then [nullAllowed]
    else []⟩, type.2)

/-- The parameters of a method, and whether a type among theirs is
unsafe. -/
def bindParameters (ctx : TypeContext) (self? : Option String)
    (m : Method) : List BoundParameter × Bool :=
  let bound := m.parameters.mapIdx fun index p =>
    bindParameter ctx self? m.inNonnullScope p index
  (bound.map (·.1), bound.any (·.2))

/-- The attributes of a property that tell how its value is kept. -/
def semanticAttributes : List (String × String) :=
  [("copy", "Copy"), ("strong", "Strong"), ("retain", "Strong"),
    ("weak", "Weak"), ("assign", "Assign"),
    ("unsafe_unretained", "Assign")]

/-- How the value of a property is kept, as far as it is told; that of an
enumeration is simply assigned. -/
def argumentSemantic? (ctx : TypeContext) (p : Property) :
    Option String :=
  match semanticAttributes.find? fun s => p.hasAttribute s.1 with
  | some s => some s.2
  | none =>
    if ctx.isEnum (baseTypeName p.type) then some "Assign" else none

end HeaderBinding
