/-
What a header declares.

* `Property`, `Method`, `Interface`, `Protocol`: classes, categories and
  protocols with their members;
* `EnumDef`, `StructDef`, `Alias`, `Function`: the declarations of C;
* `Diagnostic`: a remark on a declaration that could not be read;
* `Header`: all of them, in the order of the text.
-/
import HeaderBinding.Text.Search

namespace HeaderBinding

/-- A remark on the text, at the place of a token. -/
structure Diagnostic where
  message : String
  line : Nat
  column : Nat
deriving DecidableEq, Repr

/-- The remark as it is shown, without the name of the file. -/
def Diagnostic.describe (d : Diagnostic) : String :=
  s!"{d.line}:{d.column}: {d.message}"

/-- A parameter of a method or a function. -/
structure Parameter where
  name : String
  type : String
  nullable : Bool := false
deriving DecidableEq, Repr

/-- A property of a class or a protocol. -/
structure Property where
  name : String
  type : String
  attributes : List String := []
  nullable : Bool := false
  inNonnullScope : Bool := false
  optional : Bool := false
deriving DecidableEq, Repr

/-- The property has the attribute as it stands. -/
def Property.hasAttribute (p : Property) (name : String) : Bool :=
  p.attributes.contains name

/-- The value of the first attribute that gives the key one. -/
def Property.attributeValue? (p : Property) (key : String) :
    Option String :=
  p.attributes.findSome? fun a =>
    (key ++ "=").toList.isPrefixOf? a.toList |>.map String.ofList

/-- The property belongs to the class itself. -/
def Property.onClass (p : Property) : Bool :=
  p.hasAttribute "class"

/-- The property has no setter. -/
def Property.isReadonly (p : Property) : Bool :=
  p.hasAttribute "readonly"

/-- A method of a class or a protocol. -/
structure Method where
  selector : String
  returnType : String
  parameters : List Parameter := []
  optional : Bool := false
  inNonnullScope : Bool := false
  returnNullable : Bool := false
  designated : Bool := false
deriving DecidableEq, Repr

/-- The segments of a text between colons that are not empty. -/
def colonSegments (s : String) : List String :=
  ((splitAtChar ':' s.toList).filter (!·.isEmpty)).map String.ofList

/-- The labels of the selector; a selector without colons is one label. -/
def Method.labels (m : Method) : List String :=
  if m.selector.toList.contains ':' then colonSegments m.selector
  else [m.selector]

/-- A class or, if it has a category name, a category of a class.  The
name of a class extension is empty. -/
structure Interface where
  name : String
  superclass? : Option String := none
  category? : Option String := none
  protocols : List String := []
  properties : List Property := []
  instanceMethods : List Method := []
  classMethods : List Method := []
  initUnavailable : Bool := false
deriving DecidableEq, Repr

/-- The interface adds to a class that is declared elsewhere. -/
def Interface.isCategory (i : Interface) : Bool :=
  i.category?.isSome

/-- A protocol; its methods are kept apart by whether they are required
and whether they belong to the class. -/
structure Protocol where
  name : String
  inherited : List String := []
  properties : List Property := []
  requiredInstance : List Method := []
  requiredClass : List Method := []
  optionalInstance : List Method := []
  optionalClass : List Method := []
deriving DecidableEq, Repr

/-- A name of an enumeration, with its value as it is written. -/
structure EnumCase where
  name : String
  value? : Option String := none
deriving DecidableEq, Repr

/-- An enumeration, or a set of options. -/
structure EnumDef where
  name? : Option String := none
  backing? : Option String := none
  isOptions : Bool := false
  cases : List EnumCase := []
deriving DecidableEq, Repr

/-- A field of a structure. -/
structure StructField where
  name : String
  type : String
deriving DecidableEq, Repr

/-- A structure; it is empty where it is only named. -/
structure StructDef where
  name : String
  fields : List StructField := []
deriving DecidableEq, Repr

/-- A second name for a type. -/
structure Alias where
  name : String
  target : String
deriving DecidableEq, Repr

/-- The name stands for a block type. -/
def Alias.isBlock (a : Alias) : Bool :=
  occursIn "(^)" a.target

/-- The name stands for a pointer to a function. -/
def Alias.isFunctionPointer (a : Alias) : Bool :=
  occursIn "(*)" a.target

/-- A function, or a variable if it has no parameter list. -/
structure Function where
  name : String
  returnType : String
  parameters : List Parameter := []
  hasParameterList : Bool := true
  isInline : Bool := false
deriving DecidableEq, Repr

/-- The name that marks the open end of a parameter list. -/
def restName : String := "..."

/-- Further arguments may follow the named ones. -/
def Function.isVariadic (f : Function) : Bool :=
  f.parameters.any (·.name == restName)

/-- The names that are announced without a declaration. -/
structure ForwardNames where
  classes : List String := []
  protocols : List String := []
deriving DecidableEq, Repr

/-- The declarations of one file. -/
structure Header where
  file : String := ""
  interfaces : List Interface := []
  protocols : List Protocol := []
  enums : List EnumDef := []
  structs : List StructDef := []
  aliases : List Alias := []
  functions : List Function := []
  forward : ForwardNames := {}
  diagnostics : List Diagnostic := []
deriving DecidableEq, Repr

end HeaderBinding
