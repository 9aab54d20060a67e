/-
The namespaces that the C# text of some declarations uses.

* `Declaration.usedTypes`: the types in a declaration;
* `usings`: the namespaces, in alphabetical order.
-/
import HeaderBinding.Binding.Basic
import HeaderBinding.Text.Search

namespace HeaderBinding

/-- The types in a declaration: of members, of parameters, of what is
returned. -/
def Declaration.usedTypes (d : Declaration) : List String :=
  d.members.map (·.type)
    ++ d.members.flatMap (fun m => m.parameters.map (·.type))
    ++ d.parameters.map (·.type)
    ++ (d.returnType?.filter (· ≠ "")).toList

/-- The types of the namespace `System`. -/
def systemTypes : List String :=
  ["IntPtr", "UIntPtr", "Action"]

/-- The types of the namespace `ObjCRuntime`. -/
def runtimeTypes : List String :=
  ["NativeHandle", "Selector", "Class"]

/-- The type mentions a type of `System`. -/
def usesSystem (type : String) : Bool :=
  systemTypes.any fun name => occursIn name type

/-- The type is one of `ObjCRuntime`, or an array of one. -/
def usesRuntime (type : String) : Bool :=
  runtimeTypes.any fun name =>
    type == name || (name ++ "[").toList.isPrefixOf type.toList

/-- The declaration uses the namespace `ObjCRuntime`. -/
def Declaration.needsRuntime (d : Declaration) : Bool :=
  d.hasAttribute "Native" || d.kind == .functions
    || d.usedTypes.any usesRuntime

/-- The declaration uses the namespace `System`. -/
def Declaration.needsSystem (d : Declaration) : Bool :=
  d.hasAttribute "Flags" || d.usedTypes.any usesSystem

/-- The declaration tells how its values are laid out or called. -/
def Declaration.needsInterop (d : Declaration) : Bool :=
  d.kind == .struct || d.kind == .functions

/-- The namespaces that some declarations use. -/
def usings (ds : List Declaration) : List String :=
  ["Foundation"]
    ++ (if ds.any (·.needsRuntime) then ["ObjCRuntime"] else [])
    ++ (if ds.any (·.needsSystem) then ["System"] else [])
    ++ if ds.any (·.needsInterop) then
      ["System.Runtime.InteropServices"] else []

end HeaderBinding
