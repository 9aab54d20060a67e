/-
A tree of files and folders.

* `FileTree`: what stands at which place;
* `FileTree.read`: the octets of a file, or why there are none;
* `FileTree.isOverlong`: the place cannot even be looked up;
* `FileTree.write`: a file gets new octets, in folders that are made if
  they are missing; the answer is the tree after that, and what went wrong.
-/
import HeaderBinding.Files.Path
import HeaderBinding.Json.Basic
import HeaderBinding.Text.Quoted

namespace HeaderBinding

/-- What stands at a place. -/
inductive FileEntry
  | folder
  | file (octets : List UInt8)
deriving DecidableEq, Repr

/-- The entry is a file. -/
def FileEntry.isFile : FileEntry → Bool
  | folder => false
  | file _ => true

/-- What stands at which place, apart from the root.  The folders of an
entry have entries of their own. -/
structure FileTree where
  entries : List (Path × FileEntry) := []
deriving DecidableEq, Repr

/-- What stands at a place. -/
def FileTree.entry? (t : FileTree) (p : Path) : Option FileEntry :=
  if p.isEmpty then some .folder else t.entries.lookup p

/-- There is a folder at the place. -/
def FileTree.isFolder (t : FileTree) (p : Path) : Bool :=
  t.entry? p = some .folder

/-- There is a file at the place. -/
def FileTree.isFile (t : FileTree) (p : Path) : Bool :=
  (t.entry? p).any FileEntry.isFile

/-- There is something at the place. -/
def FileTree.has (t : FileTree) (p : Path) : Bool :=
  (t.entry? p).isSome

/-- The names of what stands in a folder. -/
def FileTree.names (t : FileTree) (p : Path) : List String :=
  t.entries.filterMap fun e =>
    match p.isPrefixOf? e.1 with
    | some [name] => some name
    | _ => none

/-- The files in a folder, at any depth. -/
def FileTree.filesBelow (t : FileTree) (p : Path) : List Path :=
  (t.entries.filter fun e => e.2.isFile && p.isPrefixOf e.1).map (·.1)

/-- A file stands where a folder has to be on the way to a place. -/
def FileTree.isBlocked (t : FileTree) (p : Path) : Bool :=
  p.ancestors.any t.isFile

/-- The place cannot be looked up: its text is too long, or one of its
names is and stands in a folder that is there. -/
def FileTree.isOverlong (t : FileTree) (p : Path) : Bool :=
  !isShortText p.shown
    || (p.ancestors.zip p).any fun e => t.isFolder e.1 && !isShortName e.2

/-! ### Reading -/

/-- Why a file cannot be read. -/
inductive ReadFault
  | missing
  | behindFile
  | folder
  | longName
deriving DecidableEq, Repr

/-- The number of a fault, and what it is called. -/
def ReadFault.wording : ReadFault → String
  | missing => "[Errno 2] No such file or directory"
  | behindFile => "[Errno 20] Not a directory"
  | folder => "[Errno 21] Is a directory"
  | longName => "[Errno 36] File name too long"

/-- The fault and the place where it arose. -/
def ReadFault.message (f : ReadFault) (p : Path) : String :=
  f.wording ++ ": " ++ quotedText p.shown

/-- The octets of a file. -/
def FileTree.read (t : FileTree) (p : Path) :
    Except ReadFault (List UInt8) :=
  match t.entry? p with
  | some (.file octets) => .ok octets
  | some .folder => .error .folder
  | none =>
    .error <|
      if t.isOverlong p then .longName
      else if t.isBlocked p then .behindFile
      else .missing

/-! ### Writing -/

/-- Why the folders of a file, or the file itself, cannot be made. -/
inductive FolderFault
  /-- A file stands in the place of the folder. -/
  | fileInPlace
  /-- A file stands in the place of a folder above it. -/
  | behindFile
  | longName
deriving DecidableEq, Repr

/-- The tree with an entry at a place. -/
def FileTree.put (t : FileTree) (p : Path) (e : FileEntry) : FileTree :=
  ⟨putField p e t.entries⟩

/-- The tree with a folder at a place that has nothing yet. -/
def FileTree.addFolder (t : FileTree) (p : Path) : FileTree :=
  if t.has p then t else t.put p .folder

/-- The tree with a folder at a place, and with those above it. -/
def FileTree.addFolders (t : FileTree) (p : Path) : FileTree :=
  (p.ancestors ++ [p]).foldl addFolder t

/-- A folder is made at a place, with those above it.  Those above a name
that is too long stay made. -/
def FileTree.makeFolder (t : FileTree) (p : Path) :
    FileTree × Option FolderFault :=
  if t.isBlocked p then (t, some .behindFile)
  else if t.isFile p then (t, some .fileInPlace)
  else
    (t.addFolders (p.takeWhile isShortName),
      if p.all isShortName then none else some .longName)

/-- A file that is no folder gets new octets.  If that fails, the folders
that could be made stay made. -/
def FileTree.write (t : FileTree) (p : Path) (octets : List UInt8) :
    FileTree × Option FolderFault :=
  match t.makeFolder p.folder with
  | (t, some f) => (t, some f)
  | (t, none) =>
    if isShortName p.name then (t.put p (.file octets), none)
    else (t, some .longName)

end HeaderBinding
