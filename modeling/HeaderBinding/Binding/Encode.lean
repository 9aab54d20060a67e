/-
Declarations as JSON.

* `Declaration.toJson`: a declaration with its members; what is empty or
  not given is left out where it is the exception.  Comments are no part
  of it.
-/
import HeaderBinding.Binding.Basic
import HeaderBinding.Header.Encode

namespace HeaderBinding

/-- A field with a list, unless it is empty. -/
def listField {α : Type} (name : String) (f : α → Json) (as : List α) :
    List (String × Json) :=
  if as.isEmpty then [] else [(name, .ofList f as)]

/-- An attribute as JSON. -/
def Attribute.toJson (a : Attribute) : Json :=
  .ofFields ([("name", .str a.name), ("args", .ofStrings a.args)]
    ++ textField "target" (a.target?.filter (· ≠ "")))

/-- A parameter as JSON. -/
def BoundParameter.toJson (p : BoundParameter) : Json :=
  .ofFields [("name", .str p.name), ("type", .str p.type),
    ("attributes", .ofList Attribute.toJson p.attributes)]

/-- An accessor as JSON. -/
def Accessor.toJson (a : Accessor) : Json :=
  .ofFields [("kind", .str a.kind.label),
    ("attributes", .ofList Attribute.toJson a.attributes)]

/-- A member as JSON. -/
def Member.toJson (m : Member) : Json :=
  .ofFields ([("kind", .str m.kind.label), ("name", .str m.name),
      ("type", .str m.type),
      ("attributes", .ofList Attribute.toJson m.attributes)]
    ++ listField "parameters" BoundParameter.toJson m.parameters
    ++ listField "accessors" Accessor.toJson m.accessors
    ++ textField "value" m.value?
    ++ if m.isUnsafe then [("unsafe", .bool true)] else [])

/-- A declaration as JSON. -/
def Declaration.toJson (d : Declaration) : Json :=
  .ofFields ([("kind", .str d.kind.label), ("name", .str d.name),
      ("attributes", .ofList Attribute.toJson d.attributes),
      ("bases", .ofStrings d.bases),
      ("members", .ofList Member.toJson d.members)]
    ++ textField "backingType" d.backing?
    ++ textField "returnType" d.returnType?
    ++ listField "parameters" BoundParameter.toJson d.parameters)

end HeaderBinding
