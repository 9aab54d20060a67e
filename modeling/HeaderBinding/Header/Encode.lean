/-
Headers as JSON.

* `Header.toJson`: the declarations of a header; what is not given, such
  as the superclass of a root class, is left out.
-/
import HeaderBinding.Header.Basic
import HeaderBinding.Json.Basic

namespace HeaderBinding

/-- A field with a text, if it is given. -/
def textField (name : String) : Option String → List (String × Json)
  | some text => [(name, .str text)]
  | none => []

/-- An array of the encoded elements. -/
def Json.ofList {α : Type} (f : α → Json) (as : List α) : Json :=
  .arr (as.map f)

/-- A remark as JSON. -/
def Diagnostic.toJson (d : Diagnostic) : Json :=
  .ofFields [("message", .str d.message), ("line", .int d.line),
    ("column", .int d.column)]

/-- A parameter as JSON. -/
def Parameter.toJson (p : Parameter) : Json :=
  .ofFields [("name", .str p.name), ("type", .str p.type),
    ("isNullable", .bool p.nullable)]

/-- A property as JSON. -/
def Property.toJson (p : Property) : Json :=
  .ofFields [("name", .str p.name), ("type", .str p.type),
    ("attributes", .ofStrings p.attributes),
    ("isNullable", .bool p.nullable),
    ("inNonnullScope", .bool p.inNonnullScope),
    ("isOptional", .bool p.optional)]

/-- A method as JSON. -/
def Method.toJson (m : Method) : Json :=
  .ofFields [("selector", .str m.selector), ("returnType", .str m.returnType),
    ("parameters", .ofList Parameter.toJson m.parameters),
    ("isOptional", .bool m.optional),
    ("inNonnullScope", .bool m.inNonnullScope),
    ("isReturnNullable", .bool m.returnNullable),
    ("isDesignatedInitializer", .bool m.designated)]

/-- A class or a category as JSON. -/
def Interface.toJson (i : Interface) : Json :=
  .ofFields (("name", .str i.name) :: textField "superclass" i.superclass?
    ++ ("protocols", .ofStrings i.protocols)
      :: textField "category" i.category?
    ++ [("properties", .ofList Property.toJson i.properties),
      ("instanceMethods", .ofList Method.toJson i.instanceMethods),
      ("classMethods", .ofList Method.toJson i.classMethods),
      ("isInitUnavailable", .bool i.initUnavailable)])

/-- A protocol as JSON. -/
def Protocol.toJson (p : Protocol) : Json :=
  .ofFields [("name", .str p.name),
    ("inheritedProtocols", .ofStrings p.inherited),
    ("properties", .ofList Property.toJson p.properties),
    ("requiredInstanceMethods", .ofList Method.toJson p.requiredInstance),
    ("requiredClassMethods", .ofList Method.toJson p.requiredClass),
    ("optionalInstanceMethods", .ofList Method.toJson p.optionalInstance),
    ("optionalClassMethods", .ofList Method.toJson p.optionalClass)]

/-- A name of an enumeration as JSON. -/
def EnumCase.toJson (c : EnumCase) : Json :=
  .ofFields (("name", .str c.name) :: textField "value" c.value?)

/-- An enumeration as JSON. -/
def EnumDef.toJson (e : EnumDef) : Json :=
  .ofFields (textField "name" e.name? ++ textField "backingType" e.backing?
    ++ [("isOptions", .bool e.isOptions),
      ("values", .ofList EnumCase.toJson e.cases)])

/-- A field of a structure as JSON. -/
def StructField.toJson (f : StructField) : Json :=
  .ofFields [("name", .str f.name), ("type", .str f.type)]

/-- A structure as JSON. -/
def StructDef.toJson (s : StructDef) : Json :=
  .ofFields [("name", .str s.name),
    ("fields", .ofList StructField.toJson s.fields)]

/-- An alias as JSON. -/
def Alias.toJson (a : Alias) : Json :=
  .ofFields [("name", .str a.name), ("underlyingType", .str a.target)]

/-- A function as JSON. -/
def Function.toJson (f : Function) : Json :=
  .ofFields [("name", .str f.name), ("returnType", .str f.returnType),
    ("parameters", .ofList Parameter.toJson f.parameters),
    ("hasParameterList", .bool f.hasParameterList),
    ("isInline", .bool f.isInline)]

/-- Announced names as JSON. -/
def ForwardNames.toJson (n : ForwardNames) : Json :=
  .ofFields [("classes", .ofStrings n.classes),
    ("protocols", .ofStrings n.protocols)]

/-- A header as JSON. -/
def Header.toJson (h : Header) : Json :=
  .ofFields [("file", .str h.file),
    ("interfaces", .ofList Interface.toJson h.interfaces),
    ("protocols", .ofList Protocol.toJson h.protocols),
    ("enums", .ofList EnumDef.toJson h.enums),
    ("structs", .ofList StructDef.toJson h.structs),
    ("typedefs", .ofList Alias.toJson h.aliases),
    ("functions", .ofList Function.toJson h.functions),
    ("forwardDeclarations", h.forward.toJson),
    ("diagnostics", .ofList Diagnostic.toJson h.diagnostics)]

end HeaderBinding
