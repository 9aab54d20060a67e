/-
What a bundle holds, seen along a route to it.

* `surveySlices`: the slices of a bundle;
* `surveySlice`: the routes to the headers of a slice;
* `surveyBundle`: the routes to the headers of a bundle.
-/
import HeaderBinding.Files.Bundle
import HeaderBinding.Files.Route

namespace HeaderBinding

/-- Why nothing is known of what a route leads to. -/
inductive SurveyFault
  /-- The route, or a name in it, is too long to be looked up. -/
  | longRoute
  | bundle (route : Route) (fault : BundleFault)
deriving DecidableEq, Repr

/-- What is told about a fault, if anything is. -/
def SurveyFault.message? : SurveyFault → Option String
  | longRoute => none
  | bundle r f => some (f.message r.shown)

/-- The place that a route leads to, if it leads anywhere. -/
def surveyPlace (t : FileTree) (folder : Path) (r : Route) :
    Except SurveyFault (Option Path) :=
  match r.follow t folder with
  | .ok p => .ok (some p)
  | .error .longName => .error .longRoute
  | .error _ => .ok none

/-- The routes to files below the place that a route leads to. -/
def Route.toFiles (r : Route) (place : Path) (files : List Path) :
    List Route :=
  files.map fun p => r.below (p.drop place.length)

/-- The names of the slices of a bundle, in order. -/
def surveySlices (t : FileTree) (folder : Path) (r : Route) :
    Except SurveyFault (List String) := do
  match (← surveyPlace t folder r).bind (sliceNames? t) with
  | some names => return names
  | none => throw (.bundle r .noBundle)

/-- The routes to the headers of a slice, in order.  A slice that is
missing has none. -/
def surveySlice (t : FileTree) (folder : Path) (r : Route) :
    Except SurveyFault (List Route) := do
  discard (surveyPlace t folder (r.below [headersName]))
  match ← surveyPlace t folder r with
  | some place => return r.toFiles place (sliceHeaders t place)
  | none => return []

/-- The routes to the headers of a bundle, in order. -/
def surveyBundle (t : FileTree) (folder : Path) (r : Route)
    (slice? : Option String) (platform : String) :
    Except SurveyFault (List Route) := do
  match ← surveyPlace t folder r with
  | some place =>
    match bundleHeaders t place slice? platform with
    | .ok files => return r.toFiles place files
    | .error f => throw (.bundle r f)
  | none => throw (.bundle r .noBundle)

end HeaderBinding
