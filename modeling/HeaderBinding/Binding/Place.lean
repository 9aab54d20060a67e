/-
The types that the declarations of a header are made of, and whether they
can be made: a type that leads to itself has no C# type.

* `Place`: a type of the header and whether it is that of a parameter;
  `Header.places`: all types that are mapped;
* `Header.slots`: the types of which it counts whether they are references;
* `Header.declarations?`: the declarations of a header, if all its places
  have a C# type and it is settled which slots are references;
* `assembleHeaders?`, `assembleHeader?`: so for some headers together, and
  for a header by itself.
-/
import HeaderBinding.Binding.Assemble

namespace HeaderBinding

/-! ### What is declared -/

/-- The structures that are declared: those with a name and fields. -/
def Header.boundStructs (h : Header) : List StructDef :=
  h.structs.filter fun s => s.name ≠ "" && !s.fields.isEmpty

/-- The functions that are declared: those without a body. -/
def Header.boundFunctions (h : Header) : List Function :=
  h.functions.filter fun f => !f.isInline && !f.isConstant

/-- The variables that are declared. -/
def Header.boundConstants (h : Header) : List Function :=
  h.functions.filter fun f => !f.isInline && f.isConstant

/-- The names of block types that get a delegate. -/
def Header.boundBlocks (h : Header) : List Alias :=
  h.aliases.filter fun a => a.isBlock && a.name ≠ ""

/-- The type of the elements of a field, without array bounds. -/
def StructField.elementType (f : StructField) : String :=
  String.ofList (trim (splitArraySuffixes f.type.toList).1)

/-! ### Places -/

/-- A type of a header, in the class that it stands in. -/
structure Place where
  self? : Option String := none
  type : String
  /-- The type is that of a parameter. -/
  isArgument : Bool := false
deriving DecidableEq, Repr

/-- The types of the parameters of the method. -/
def Method.argumentPlaces (self? : Option String) (m : Method) :
    List Place :=
  m.parameters.map fun p => ⟨self?, p.type, true⟩

/-- The types of the method. -/
def Method.places (self? : Option String) (m : Method) : List Place :=
  ⟨self?, m.returnType, false⟩ :: m.argumentPlaces self?

/-- The types of a method of the objects of a class; a constructor returns
none. -/
def Interface.methodPlaces (i : Interface) (m : Method) : List Place :=
  if m.isInitializer && m.returnsSelf i.name && !i.isCategory then
    m.argumentPlaces (some i.name)
  else m.places (some i.name)

/-- The types of the interface. -/
def Interface.places (i : Interface) : List Place :=
  i.properties.map (fun p => ⟨some i.name, p.type, false⟩)
    ++ (i.instanceMethods.filter (!isWithheld i "init" ·)).flatMap
      i.methodPlaces
    ++ (i.classMethods.filter (!isWithheld i "new" ·)).flatMap
      (·.places (some i.name))

/-- The types of the protocol. -/
def Protocol.places (p : Protocol) : List Place :=
  p.properties.map (fun q => ⟨none, q.type, false⟩)
    ++ (p.requiredInstance ++ p.requiredClass ++ p.optionalInstance
      ++ p.optionalClass).flatMap (·.places none)

/-- The type of the elements of a field, unless it is kept as a bare
pointer. -/
def StructField.places (ctx : TypeContext) (f : StructField) :
    List Place :=
  let sizes := (splitArraySuffixes f.type.toList).2.map trim
  if !sizes.isEmpty && sizes.all (!·.isEmpty) then
    [⟨none, f.elementType, false⟩]
  else if !sizes.isEmpty || isObjectReference ctx f.elementType then []
  else [⟨none, f.elementType, false⟩]

/-- The types of the function; an open end has none. -/
def Function.places (f : Function) : List Place :=
  ⟨none, f.returnType, false⟩
    :: (f.parameters.filter (·.name ≠ restName)).map
      fun p => ⟨none, p.type, true⟩

/-- The type of the variable, unless it is kept as a string. -/
def Function.constantPlaces (ctx : TypeContext) (f : Function) :
    List Place :=
  if constantBase ctx f.returnType = "NSString" then []
  else [⟨none, f.returnType, false⟩]

/-- The types of the block that the name stands for. -/
def Alias.places (a : Alias) : List Place :=
  let split := splitBlockSignature a.target.toList
  ⟨none, if split.1.isEmpty then "void" else String.ofList split.1, false⟩
    :: split.2.map fun cs =>
      ⟨none, String.ofList ((splitBlockParameter? cs).getD (cs, [])).1,
        true⟩

/-- The types of all that is declared for the header. -/
def Header.places (ctx : TypeContext) (h : Header) : List Place :=
  h.boundStructs.flatMap (fun s =>
      (s.fields.filter (·.name ≠ "")).flatMap (·.places ctx))
    ++ h.boundFunctions.flatMap Function.places
    ++ h.boundConstants.flatMap (·.constantPlaces ctx)
    ++ h.protocols.flatMap Protocol.places
    ++ h.interfaces.flatMap Interface.places
    ++ h.boundBlocks.flatMap Alias.places

/-! ### Slots -/

/-- The type of a slot, if it counts whether it is a reference: not where
the value may be missing anyway, or none is. -/
def slotTypes (type : String) (marked inNonnullScope : Bool) :
    List String :=
  if marked || inNonnullScope then [] else [type]

/-- The slots of the parameters of the method. -/
def Method.argumentSlots (m : Method) : List String :=
  m.parameters.flatMap fun p =>
    if isErrorOut p.type then []
    else slotTypes p.type p.nullable m.inNonnullScope

/-- The slots of the method; the returned value is one, if there is any. -/
def Method.slots (ctx : TypeContext) (self? : Option String)
    (m : Method) : List String :=
  m.argumentSlots
    ++ if (bindType ctx self? m.returnType).1 = "void" then []
      else slotTypes m.returnType m.returnNullable m.inNonnullScope

/-- The slot of the property. -/
def Property.slots (p : Property) : List String :=
  slotTypes p.type (p.nullable || p.hasAttribute "weak") p.inNonnullScope

/-- The slots of a method of the objects of a class. -/
def Interface.methodSlots (ctx : TypeContext) (i : Interface)
    (m : Method) : List String :=
  if m.isInitializer && m.returnsSelf i.name && !i.isCategory then
    m.argumentSlots
  else m.slots ctx (some i.name)

/-- The slots of the interface. -/
def Interface.slots (ctx : TypeContext) (i : Interface) : List String :=
  i.properties.flatMap Property.slots
    ++ (i.instanceMethods.filter (!isWithheld i "init" ·)).flatMap
      (i.methodSlots ctx)
    ++ (i.classMethods.filter (!isWithheld i "new" ·)).flatMap
      (·.slots ctx (some i.name))

/-- The slots of the protocol. -/
def Protocol.slots (ctx : TypeContext) (p : Protocol) : List String :=
  p.properties.flatMap Property.slots
    ++ (p.requiredInstance ++ p.requiredClass ++ p.optionalInstance
      ++ p.optionalClass).flatMap (·.slots ctx none)

/-- The slot of the field, which is one unless the field is an array. -/
def StructField.slots (f : StructField) : List String :=
  if (splitArraySuffixes f.type.toList).2.isEmpty then [f.elementType]
  else []

/-- The types of the header of which it counts whether they are
references. -/
def Header.slots (ctx : TypeContext) (h : Header) : List String :=
  h.boundStructs.flatMap (fun s =>
      (s.fields.filter (·.name ≠ "")).flatMap StructField.slots)
    ++ h.protocols.flatMap (·.slots ctx)
    ++ h.interfaces.flatMap (·.slots ctx)

/-! ### Declarations -/

/-- All places of the header have a C# type, and it is settled which of its
slots are references. -/
def Header.isSettled (ctx : TypeContext) (h : Header) : Bool :=
  (h.places ctx).all (fun p => (mapType? ctx p.self? p.type).isSome)
    && (h.slots ctx).all fun type => (isObjectReference? ctx type).isSome

/-- The declarations that bind a header, in the terms of some context, if
all its types are settled. -/
def Header.declarations? (ctx : TypeContext) (h : Header) :
    Option (List Declaration) :=
  if h.isSettled ctx then some (h.declarations ctx) else none

/-- The declarations that bind some headers together, if all their types
are settled. -/
def assembleHeaders? (hs : List Header) :
    Option (List (List Declaration)) :=
  (mergeCategories hs).mapM (Header.declarations? (.ofHeaders hs))

/-- The declarations that bind a header by itself, if all its types are
settled. -/
def assembleHeader? (h : Header) : Option (List Declaration) :=
  (assembleHeaders? [h]).map List.flatten

end HeaderBinding
