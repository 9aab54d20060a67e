/-
What a command sees and changes, and why it stops.

* `Console`: the files, and what was written to the two streams;
* `CommandFault`: why a command stops; those with a message are told to
  the user;
* `Action`: a step of a command.  What it did before it stopped stays
  done.
-/
import HeaderBinding.Files.Bundle
import HeaderBinding.Json.Reader
import HeaderBinding.Settings.Check
import HeaderBinding.Text.Lines
import HeaderBinding.Text.Utf8

namespace HeaderBinding

/-- The files, and the texts on the two streams. -/
structure Console where
  tree : FileTree
  out : String := ""
  err : String := ""
deriving DecidableEq, Repr

/-- A stream: for what a command has to say, or for what went wrong. -/
inductive Stream
  | out
  | err
deriving DecidableEq, Repr

/-- The console with a text behind all others on a stream. -/
def Console.print (c : Console) (text : String) : Stream → Console
  | .out => { c with out := c.out ++ text }
  | .err => { c with err := c.err ++ text }

/-! ### Faults -/

/-- Why a command stops. -/
inductive CommandFault
  | noFile (place : Path)
  | noHeaders (bundle : Path)
  | noInput
  | sliceWithoutBundle
  | checkWithoutOutput
  | outputTwice
  | bundle (place : Path) (fault : BundleFault)
  | unreadableHeader (place : Path) (fault : ReadFault)
  | unreadableOutput (place : Path) (fault : ReadFault)
  | unreadableSettings (place : Path) (fault : ReadFault)
  | badJson (place : Path) (text : List Char) (fault : JsonFault)
  | badSettings (fault : SettingsFault)
  /-- The settings do not keep to their schema. -/
  | badSchema (message : String)
  /-- A file is no text. -/
  | badText (place : Path)
  /-- A text means no place. -/
  | noPlace
  /-- A place cannot be looked up. -/
  | longPlace (place : Path)
  /-- A file cannot be made where it has to be. -/
  | badFolder (place : Path) (fault : FolderFault)
  /-- A type leads to itself. -/
  | endlessType
  /-- A text has half of a surrogate pair, which has no octets. -/
  | unencodable
deriving Repr

/-- The place between quotation marks. -/
def Path.marked (p : Path) : String :=
  "'" ++ p.shown ++ "'"

/-- What the user is told about a fault.  About a number too long to be
read, a file that is no text, a text that means no place, a place that
cannot be looked up, a folder that cannot be made, a type that leads to
itself and a text without octets nothing is told. -/
def CommandFault.message? : CommandFault → Option String
  | noFile p => some ("File not found: " ++ p.shown)
  | noHeaders p => some ("No headers found in " ++ p.shown)
  | noInput =>
    some ("No input files specified. Provide header files or "
      ++ "--framework.")
  | sliceWithoutBundle => some "--slice requires --framework."
  | checkWithoutOutput => some "--check requires --output."
  | outputTwice =>
    some "--output and --output-dir are mutually exclusive."
  | bundle p f => some (f.message p.shown)
  | unreadableHeader p f =>
    some ("Unable to read header " ++ p.marked ++ ": " ++ f.message p)
  | unreadableOutput p f =>
    some ("Unable to read file " ++ p.marked ++ ": " ++ f.message p)
  | unreadableSettings p f =>
    some ("Unable to read JSON file " ++ p.marked ++ ": " ++ f.message p)
  | badJson p text f =>
    if f.kind = .hugeNumber then none
    else some ("Invalid JSON in " ++ p.marked ++ ": " ++ f.message text)
  | badSettings f => some f.message
  | badSchema message =>
    some ("config failed JSON schema validation: " ++ message)
  | badText _ => none
  | noPlace => none
  | longPlace _ => none
  | badFolder _ _ => none
  | endlessType => none
  | unencodable => none

/-! ### Steps -/

/-- A step of a command. -/
abbrev Action := ExceptT CommandFault (StateM Console)

/-- The files. -/
def currentFiles : Action FileTree :=
  return (← get).tree

/-- A text for the user to read. -/
def print (stream : Stream) (text : String) : Action Unit :=
  modify fun c => c.print text stream

/-- A line for the user to read. -/
def say (stream : Stream) (line : String) : Action Unit :=
  print stream (line ++ "\n")

/-- What stands at a place, if anything does. -/
def lookUp (p : Path) : Action (Option FileEntry) := do
  let t ← currentFiles
  if t.isOverlong p then throw (.longPlace p)
  return t.entry? p

/-- The octets of a file. -/
def loadOctets (p : Path) (fault : Path → ReadFault → CommandFault) :
    Action (List UInt8) := do
  match (← currentFiles).read p with
  | .ok octets => return octets
  | .error f => throw (fault p f)

/-- The text of a file, which must be one. -/
def loadText (p : Path) (fault : Path → ReadFault → CommandFault) :
    Action (List Char) := do
  match readStrict? (← loadOctets p fault) with
  | some cs => return unifyLineEnds cs
  | none => throw (.badText p)

/-- A file gets a new text.  The folders that were made for it stay made
even if that fails. -/
def storeText (p : Path) (text : String) : Action Unit := do
  let (tree, fault?) := (← currentFiles).write p (encodeUtf8 text.toList)
  modify fun c => { c with tree := tree }
  if let some f := fault? then throw (.badFolder p f)

end HeaderBinding
