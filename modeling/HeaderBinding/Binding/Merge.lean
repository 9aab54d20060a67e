/-
Folding categories into the classes that they add to.

* `Interface.adopt`: a class takes over what a category declares;
* `mergeCategories`: over some headers, the first declaration of each
  class adopts all of its categories, which then leave their headers.
  A category of a class that none of the headers declares stays.
-/
import HeaderBinding.Mapping.Context

namespace HeaderBinding

/-- The class with the members of a category, and with those of its
protocols that are new. -/
def Interface.adopt (primary category : Interface) : Interface :=
  { primary with
    properties := primary.properties ++ category.properties
    instanceMethods := primary.instanceMethods ++ category.instanceMethods
    classMethods := primary.classMethods ++ category.classMethods
    protocols :=
      category.protocols.foldl (fun ps p => insertName p ps)
        primary.protocols
    initUnavailable :=
      primary.initUnavailable || category.initUnavailable }

/-- The names of the classes that are declared, not only added to. -/
def primaryNames (interfaces : List Interface) : List String :=
  (interfaces.filter (!·.isCategory)).map (·.name)

/-- The class with all of its categories. -/
def Interface.adoptAll (categories : List Interface)
    (primary : Interface) : Interface :=
  (categories.filter (·.name == primary.name)).foldl adopt primary

/-- The interfaces of one header after the merge.  The classes in `seen`
are declared before. -/
def mergeInterfaces (primaries : List String)
    (categories : List Interface) :
    List String → List Interface → List Interface
  | _, [] => []
  | seen, i :: is =>
    if i.isCategory then
      if primaries.contains i.name then
        mergeInterfaces primaries categories seen is
      else i :: mergeInterfaces primaries categories seen is
    else if seen.contains i.name then
      i :: mergeInterfaces primaries categories seen is
    else
      i.adoptAll categories
        :: mergeInterfaces primaries categories (i.name :: seen) is

/-- The headers after the merge, where the classes in `seen` are declared
before. -/
def mergeHeaders (primaries : List String)
    (categories : List Interface) :
    List String → List Header → List Header
  | _, [] => []
  | seen, h :: hs =>
    { h with
      interfaces :=
        mergeInterfaces primaries categories seen h.interfaces }
      :: mergeHeaders primaries categories
        (primaryNames h.interfaces ++ seen) hs

/-- The headers with their categories folded into the classes that they
declare. -/
def mergeCategories (hs : List Header) : List Header :=
  let interfaces := hs.flatMap (·.interfaces)
  mergeHeaders (primaryNames interfaces)
    (interfaces.filter (·.isCategory)) [] hs

end HeaderBinding
