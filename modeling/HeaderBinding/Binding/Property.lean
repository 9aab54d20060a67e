/-
Properties.

* `Property.describe`: a property as a header declares it;
* `bindProperty`: the member for a property;
* `bindOptionalProperty`: the methods for a property that a protocol does
  not ask for.
-/
import HeaderBinding.Binding.Method

namespace HeaderBinding

/-- A property as a header declares it. -/
def Property.describe (p : Property) : String :=
  "@property"
    ++ (if p.attributes.isEmpty then ""
      else " (" ++ ", ".intercalate p.attributes ++ ")")
    ++ " " ++ p.type ++ " " ++ p.name ++ ";"

/-- The selector that a property names for an accessor. -/
def Property.customSelector? (p : Property) (kind : AccessorKind) :
    Option String :=
  (p.attributeValue? kind.attributeKey).filter (· ≠ "")

/-- An accessor, with the selector that the property names for it. -/
def bindAccessor (kind : AccessorKind) (p : Property) : Accessor :=
  ⟨kind, (p.customSelector? kind).toList.map fun selector =>
    ⟨"Bind", [quoted selector], none⟩⟩

/-- The member for a property. -/
def bindProperty (ctx : TypeContext) (site : MemberSite) (p : Property) :
    Member :=
  let type := bindType ctx site.owner? p.type
  { kind := .property
    name := pascalCase p.name
    type := type.1
    attributes :=
      staticAttribute p.onClass ++ site.abstractAttribute
        ++ (if p.isNullableIn ctx then [nullAllowed] else [])
        ++ [exportAttribute p.name (argumentSemantic? ctx p)]
    accessors :=
      bindAccessor .get p
        :: if p.isReadonly then [] else [bindAccessor .set p]
    isUnsafe := type.2
    comment? := some p.describe }

/-- The method that reads an optional property. -/
def bindGetter (ctx : TypeContext) (p : Property) : Member :=
  let type := bindType ctx none p.type
  { kind := .method
    name := pascalCase p.name
    type := type.1
    attributes :=
      staticAttribute p.onClass
        ++ (if p.isNullableIn ctx then [returnNullAllowed] else [])
        ++ [exportAttribute ((p.customSelector? .get).getD p.name)
          none]
    isUnsafe := type.2
    comment? := some (MemberSite.optional.remark ++ p.describe) }

/-- The method that writes an optional property. -/
def bindSetter (ctx : TypeContext) (p : Property) : Member :=
  let type := bindType ctx none p.type
  { kind := .method
    name := "Set" ++ pascalCase p.name
    type := "void"
    attributes :=
      staticAttribute p.onClass
        ++ [exportAttribute (setterSelector p.name)
          (argumentSemantic? ctx p)]
    parameters :=
      [⟨"value", type.1,
        if p.isNullableIn ctx then [nullAllowed] else []⟩]
    isUnsafe := type.2 }

/-- The methods for a property that need not be there. -/
def bindOptionalProperty (ctx : TypeContext) (p : Property) :
    List Member :=
  bindGetter ctx p :: if p.isReadonly then [] else [bindSetter ctx p]

end HeaderBinding
