/-
The places of files.

* `Path`: the names from the root on;
* `Path.enter`: the place that a part of a route leads to;
* `isShortName`, `isShortText`: how long a name, and the text of a place,
  can be;
* `fileStem`: the name of a file without its ending.
-/

namespace HeaderBinding

/-- The names of the folders from the root on, and of the file. -/
abbrev Path := List String

/-- The place that a part leads to; two dots lead to the folder above. -/
def Path.enter (p : Path) (part : String) : Path :=
  if part = ".." then p.dropLast else p ++ [part]

/-- The place as it is shown. -/
def Path.shown (p : Path) : String :=
  "/" ++ "/".intercalate p

/-- The name of the file or folder. -/
def Path.name (p : Path) : String :=
  p.getLast?.getD ""

/-- The folder that the file is in. -/
def Path.folder (p : Path) : Path :=
  p.dropLast

/-- The folders that lead to a place, from the root on. -/
def Path.ancestors (p : Path) : List Path :=
  (List.range p.length).map fun n => p.take n

/-- A name has at most 255 octets. -/
def isShortName (name : String) : Bool :=
  name.utf8ByteSize ≤ 255

/-- The text by which a place is looked up has less than 4096 octets. -/
def isShortText (text : String) : Bool :=
  text.utf8ByteSize < 4096

/-- The name of a file without its ending.  A dot at the start or at the
end starts no ending. -/
def fileStem (name : String) : String :=
  let reversed := name.toList.reverse
  let ending := reversed.takeWhile (· ≠ '.')
  match reversed.dropWhile (· ≠ '.') with
  | _ :: stem =>
    if ending.isEmpty || stem.isEmpty then name
    else String.ofList stem.reverse
  | [] => name

end HeaderBinding
