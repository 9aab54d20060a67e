/-
The declarations that bind a header.

* `bindEnum`, `bindStruct`, `bindProtocol`, `bindInterface`: one
  declaration each;
* `Header.declarations`: those of a header, by kind and in the order of
  the text;
* `assembleHeader`: a header by itself, its categories folded first;
* `assembleHeaders`: some headers together, which share the names of
  their types and fold their categories across files.
-/
import HeaderBinding.Binding.Delegate
import HeaderBinding.Binding.EnumText
import HeaderBinding.Binding.Field
import HeaderBinding.Binding.Function
import HeaderBinding.Binding.Merge
import HeaderBinding.Binding.Property

namespace HeaderBinding

/-! ### Enumerations -/

/-- The value of a case.  It stays as it is written if one of the new names
stands for no text. -/
def boundEnumValue (renames : List (String × String)) (value : String) :
    String :=
  (cleanEnumValue renames value).toOption.getD value

/-- The declaration for an enumeration of a name. -/
def bindEnum (e : EnumDef) (name : String) : Declaration :=
  let renames := enumRenames name (e.cases.map (·.name))
  { kind := .enum
    name := name
    attributes :=
      (if isNativeEnum e.backing? then [⟨"Native", [], none⟩] else [])
        ++ (if e.isOptions then [⟨"Flags", [], none⟩] else [])
    members := e.cases.map fun c =>
      { kind := .value
        name := stripEnumPrefix name c.name
        type := ""
        value? := c.value?.map (boundEnumValue renames) }
    backing? := some (mapEnumBacking e.backing?) }

/-- The name of the enumeration without a name that has a number. -/
def anonymousEnumName (number : Nat) : String :=
  if number = 1 then "AnonymousEnum"
  else "AnonymousEnum" ++ toString number

/-- The declarations for some enumerations, where so many without a name
came before.  One that has neither a name nor a case has none. -/
def bindEnums : Nat → List EnumDef → List Declaration
  | _, [] => []
  | anonymous, e :: es =>
    match e.name?.filter (· ≠ "") with
    | some name => bindEnum e name :: bindEnums anonymous es
    | none =>
      if e.cases.isEmpty then bindEnums anonymous es
      else
        bindEnum e (anonymousEnumName (anonymous + 1))
          :: bindEnums (anonymous + 1) es

/-! ### Structures, functions and variables -/

/-- The declaration for a structure. -/
def bindStruct (ctx : TypeContext) (s : StructDef) : Declaration :=
  { kind := .struct
    name := s.name
    attributes := [⟨"StructLayout", ["LayoutKind.Sequential"], none⟩]
    members := (s.fields.filter (·.name ≠ "")).map (bindField ctx) }

/-- The declarations for the structures that have a name and fields. -/
def bindStructs (ctx : TypeContext) (ss : List StructDef) :
    List Declaration :=
  (ss.filter fun s => s.name ≠ "" && !s.fields.isEmpty).map
    (bindStruct ctx)

/-- The class of the functions, if there are any. -/
def bindFunctions (ctx : TypeContext) (fs : List Function) :
    List Declaration :=
  match fs.filter fun f => !f.isInline && !f.isConstant with
  | [] => []
  | callables =>
    [{ kind := .functions
       name := "CFunctions"
       members := callables.map (bindFunction ctx) }]

/-- The interface of the variables, if there are any. -/
def bindConstants (ctx : TypeContext) (fs : List Function) :
    List Declaration :=
  match fs.filter fun f => !f.isInline && f.isConstant with
  | [] => []
  | constants =>
    [{ kind := .constants
       name := "Constants"
       attributes := [⟨"Static", [], none⟩]
       members := constants.map (bindConstant ctx) }]

/-! ### Protocols and classes -/

/-- The members for a property of a protocol. -/
def bindProtocolProperty (ctx : TypeContext) (p : Property) :
    List Member :=
  if p.optional then bindOptionalProperty ctx p
  else [bindProperty ctx .required p]

/-- The declaration for a protocol. -/
def bindProtocol (ctx : TypeContext) (p : Protocol) : Declaration :=
  { kind := .protocol
    name := p.name
    attributes := [⟨"Protocol", [], none⟩, baseTypeAttribute "NSObject"]
    bases := (p.inherited.filter (· ≠ "NSObject")).map ("I" ++ ·)
    members :=
      p.requiredInstance.map (bindMethod ctx .required false)
        ++ p.requiredClass.map (bindMethod ctx .required true)
        ++ p.properties.flatMap (bindProtocolProperty ctx)
        ++ p.optionalInstance.map (bindMethod ctx .optional false)
        ++ p.optionalClass.map (bindMethod ctx .optional true)
    comment? := some ("@protocol " ++ p.name) }

/-- A method that a class without a default constructor does not get. -/
def isWithheld (i : Interface) (selector : String) (m : Method) : Bool :=
  i.initUnavailable && m.selector == selector

/-- The member for a method of the objects of a class. -/
def bindInstanceMethod (ctx : TypeContext) (i : Interface) (m : Method) :
    Member :=
  if m.isInitializer && m.returnsSelf i.name && !i.isCategory then
    bindConstructor ctx i.name m
  else bindMethod ctx (.ofClass i.name) false m

/-- The members for what a class or a category declares. -/
def bindInterfaceMembers (ctx : TypeContext) (i : Interface) :
    List Member :=
  i.properties.map (bindProperty ctx (.ofClass i.name))
    ++ (i.instanceMethods.filter (!isWithheld i "init" ·)).map
      (bindInstanceMethod ctx i)
    ++ (i.classMethods.filter (!isWithheld i "new" ·)).map
      (bindMethod ctx (.ofClass i.name) true)

/-- The declaration for a category of a name. -/
def bindCategory (ctx : TypeContext) (i : Interface) (category : String) :
    Declaration :=
  { kind := .category
    name :=
      i.name ++ "_" ++ if category = "" then "Extension" else category
    attributes := [⟨"Category", [], none⟩, baseTypeAttribute i.name]
    bases := i.protocols.map ("I" ++ ·)
    members := bindInterfaceMembers ctx i
    comment? := some ("@interface " ++ i.name ++ " (" ++ category ++ ")") }

/-- The declaration for a class. -/
def bindClass (ctx : TypeContext) (i : Interface) : Declaration :=
  let superclass? := i.superclass?.filter (· ≠ "")
  { kind := .interface
    name := i.name
    attributes :=
      (superclass?.map baseTypeAttribute).toList
        ++ if i.initUnavailable then [⟨"DisableDefaultCtor", [], none⟩]
          else []
    bases := i.protocols.map ("I" ++ ·)
    members := bindInterfaceMembers ctx i
    comment? :=
      some ("@interface " ++ i.name
        ++ ((superclass?.map (" : " ++ ·)).getD "")) }

/-- The declaration for a class or a category. -/
def bindInterface (ctx : TypeContext) (i : Interface) : Declaration :=
  match i.category? with
  | some category => bindCategory ctx i category
  | none => bindClass ctx i

/-! ### Headers -/

/-- The declarations that bind a header, in the terms of some context. -/
def Header.declarations (ctx : TypeContext) (h : Header) :
    List Declaration :=
  bindEnums 0 h.enums ++ bindStructs ctx h.structs
    ++ bindFunctions ctx h.functions ++ bindConstants ctx h.functions
    ++ h.protocols.map (bindProtocol ctx)
    ++ h.interfaces.map (bindInterface ctx)
    ++ (h.aliases.filter fun a => a.isBlock && a.name ≠ "").map
      (bindDelegate ctx)

/-- The declarations that bind some headers together, header by header. -/
def assembleHeaders (hs : List Header) : List (List Declaration) :=
  (mergeCategories hs).map (Header.declarations (.ofHeaders hs))

/-- The declarations that bind a header by itself. -/
def assembleHeader (h : Header) : List Declaration :=
  (assembleHeaders [h]).flatten

end HeaderBinding
