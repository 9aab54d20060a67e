/-
Routes to places, as a user writes them.

* `Route`: where a route starts, and the parts between its slashes;
* `Route.ofText`, `Route.shown`: the route that a text means, and how it is
  shown;
* `Route.resolve?`: the place that a route leads to by its text alone;
* `Route.follow`: the place that it leads to through folders that are
  there.
-/
import HeaderBinding.Files.Tree
import HeaderBinding.Text.Search

namespace HeaderBinding

/-- Where a route starts. -/
inductive RouteStart
  /-- The folder from which places are seen. -/
  | here
  | root
  /-- The root, written with two slashes. -/
  | doubleRoot
deriving DecidableEq, Repr

/-- A way to a place, part by part. -/
structure Route where
  start : RouteStart
  parts : List String
deriving DecidableEq, Repr

/-! ### Texts -/

/-- The start of the route that a text means.  Three slashes or more say no
more than one. -/
def RouteStart.ofText (cs : List Char) : RouteStart :=
  match (cs.takeWhile (· = '/')).length with
  | 0 => here
  | 2 => doubleRoot
  | _ => root

/-- The slashes that stand for a start. -/
def RouteStart.mark : RouteStart → String
  | here => ""
  | root => "/"
  | doubleRoot => "//"

/-- The route that a text means.  Empty parts and single dots lead
nowhere. -/
def Route.ofText (text : String) : Route :=
  ⟨.ofText text.toList,
    ((splitAtChar '/' text.toList).map String.ofList).filter fun part =>
      part ≠ "" && part ≠ "."⟩

/-- The route as it is shown. -/
def Route.shown (r : Route) : String :=
  if r = ⟨.here, []⟩ then "." else r.start.mark ++ "/".intercalate r.parts

/-- The route with more parts behind it. -/
def Route.below (r : Route) (parts : List String) : Route :=
  { r with parts := r.parts ++ parts }

/-! ### Places -/

/-- The folder at the start of a route. -/
def RouteStart.place (folder : Path) : RouteStart → Path
  | here => folder
  | root | doubleRoot => []

/-- A part of the route has a null character, as no name does. -/
def Route.hasNull (r : Route) : Bool :=
  r.parts.any (·.toList.contains (Char.ofNat 0))

/-- The place that a route leads to by its text alone, seen from a folder,
if its parts can be names. -/
def Route.resolve? (folder : Path) (r : Route) : Option Path :=
  if r.hasNull then none
  else some (r.parts.foldl Path.enter (r.start.place folder))

/-- The place that parts lead to, each entered from a folder that is
there. -/
def FileTree.walk (t : FileTree) (p : Path) :
    List String → Except ReadFault Path
  | [] => .ok p
  | part :: parts =>
    if !t.isFolder p then
      .error (if t.has p then .behindFile else .missing)
    else if !isShortName part then .error .longName
    else t.walk (p.enter part) parts

/-- The place that a route leads to through folders that are there, or
where it breaks off. -/
def Route.follow (t : FileTree) (folder : Path) (r : Route) :
    Except ReadFault Path :=
  if r.hasNull then .error .missing
  else if !isShortText r.shown then .error .longName
  else t.walk (r.start.place folder) r.parts

end HeaderBinding
