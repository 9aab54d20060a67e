/-
The public headers of a bundle of frameworks.

* `sliceNames?`: the slices of a bundle, one for each kind of device;
* `sliceHeaders`: the headers of a slice, in the order of their places;
* `bundleHeaders`: those of the slice that is asked for, or of the first
  suitable slice that has any.
-/
import HeaderBinding.Files.Tree
import HeaderBinding.Text.Case
import HeaderBinding.Text.Order
import HeaderBinding.Text.Search

namespace HeaderBinding

/-! ### Slices -/

/-- The name of a folder that is no slice. -/
def isHiddenName (name : String) : Bool :=
  name.toList.head?.any fun c => c == '.' || c == '_'

/-- The names of the slices of a bundle, in order, if it is a folder. -/
def sliceNames? (t : FileTree) (bundle : Path) : Option (List String) :=
  if t.isFolder bundle then
    some (((t.names bundle).filter fun name =>
      !isHiddenName name && t.isFolder (bundle ++ [name])).mergeSort
        nameBefore)
  else none

/-- The name of the folder that public headers are in. -/
def headersName : String := "Headers"

/-- The frameworks of a slice that have public headers, in order. -/
def frameworkNames (t : FileTree) (slice : Path) : List String :=
  ((t.names slice).filter fun name =>
    ".framework".toList.isSuffixOf name.toList
      && t.isFolder (slice ++ [name, headersName])).mergeSort nameBefore

/-- The folder of the headers of a slice: its own, or that of its first
framework that has one. -/
def headersFolder? (t : FileTree) (slice : Path) : Option Path :=
  if t.isFolder (slice ++ [headersName]) then some (slice ++ [headersName])
  else
    (frameworkNames t slice).head?.map fun name =>
      slice ++ [name, headersName]

/-- The name of a header. -/
def isHeaderName (name : String) : Bool :=
  ".h".toList.isSuffixOf name.toList

/-- The headers of a slice, in order. -/
def sliceHeaders (t : FileTree) (slice : Path) : List Path :=
  match headersFolder? t slice with
  | some folder =>
    ((t.filesBelow folder).filter fun p => isHeaderName p.name).mergeSort
      namesBefore
  | none => []

/-! ### Bundles -/

/-- The slice is made for the platform. -/
def isPlatformSlice (name platform : String) : Bool :=
  let lowered := lowerText name
  if platform = "darwin" then occursIn "macos" lowered
  else if platform = "ios" then
    occursIn "ios" lowered && !occursIn "simulator" lowered
  else false

/-- Why a bundle has no headers to look for. -/
inductive BundleFault
  | noBundle
  | noSlices
  | unknownSlice (name : String) (available : List String)
deriving DecidableEq, Repr

/-- The wording of a fault of the bundle that is shown as `bundle`. -/
def BundleFault.message (bundle : String) : BundleFault → String
  | noBundle => "XCFramework not found: " ++ bundle
  | noSlices => "No slices found in " ++ bundle
  | unknownSlice name available =>
    "Slice '" ++ name ++ "' not found. Available slices: "
      ++ ", ".intercalate available

/-- The slices in the order in which they are tried: the first that is
made for the platform, or else the first, comes before all. -/
def triedSlices (names : List String) (platform : String) :
    List String :=
  let first? := (names.find? (isPlatformSlice · platform)).orElse fun _ =>
    names.head?
  first?.toList ++ names

/-- The headers of a bundle, in order: those of the slice that is asked
for, or of the first slice tried that has any. -/
def bundleHeaders (t : FileTree) (bundle : Path) (slice? : Option String)
    (platform : String) : Except BundleFault (List Path) :=
  match sliceNames? t bundle with
  | none => .error .noBundle
  | some [] => .error .noSlices
  | some names =>
    match slice? with
    | some slice =>
      match names.find? fun n => lowerText n == lowerText slice with
      | some name => .ok (sliceHeaders t (bundle ++ [name]))
      | none => .error (.unknownSlice slice names)
    | none =>
      .ok (((triedSlices names platform).map fun name =>
        sliceHeaders t (bundle ++ [name])).find? (!·.isEmpty)
          |>.getD [])

end HeaderBinding
