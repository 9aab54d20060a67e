/-
The program.

* `loadFiles`: the files that a command line can be about;
* `storeFiles`: what a command changed about them;
* `runProgram`: a command line is run among the files of the machine.
-/
import HeaderBinding.Command.Run
import HeaderBinding.Settings.Schema

namespace HeaderBinding

/-- What to tell the user who asks for help, or for what there is not. -/
def usageText : String :=
  "usage: objc_bindgen (parse | generate | list-slices | list-headers) "
    ++ "[options] [files]\n"

/-- The entry at a place with something already known about it stays; any
other is read from the machine. -/
def loadEntry (t : FileTree) (p : Path) : IO FileTree := do
  if t.has p then return t
  let here := (← IO.currentDir) / p.shown
  if ← here.isDir then return t.put p .folder
  if ← here.pathExists then
    return t.put p (.file (← IO.FS.readBinFile here).toList)
  return t

/-- The entries in a folder. -/
def loadNames (t : FileTree) (p : Path) : IO FileTree := do
  let here := (← IO.currentDir) / p.shown
  if ← here.isDir then
    (← here.readDir).foldlM (fun t e => loadEntry t (p ++ [e.fileName])) t
  else return t

/-- The entries in a folder, at any depth. -/
partial def loadBelow (t : FileTree) (p : Path) : IO FileTree := do
  let t ← loadNames t p
  (t.names p).foldlM (fun t name =>
    if t.isFolder (p ++ [name]) then loadBelow t (p ++ [name])
    else pure t) t

/-- The entry at a place, with the folders that lead there. -/
def loadPlace (t : FileTree) (p : Path) : IO FileTree :=
  (p.ancestors ++ [p]).foldlM loadEntry t

/-- The files that some arguments can be about. -/
def loadArguments (s : Station) (a : Arguments) : IO FileTree := do
  let single := a.files ++ a.config?.toList ++ a.output?.toList
    ++ a.outputDir?.toList ++ a.framework?.toList
  let places := fun (texts : List String) =>
    texts.filterMap fun text => (Route.ofText text).resolve? s.folder
  let t ← (places single).foldlM loadPlace ({} : FileTree)
  let t ← (places a.outputDir?.toList).foldlM loadNames t
  (places a.framework?.toList).foldlM loadBelow t

/-- The files that a command line can be about. -/
def loadFiles (s : Station) (args : List String) : IO FileTree :=
  match readCommandLine args with
  | .run _ a => loadArguments s a
  | _ => pure {}

/-- What stands in the new tree and not in the old one is made. -/
def storeFiles (old new : FileTree) : IO Unit :=
  new.entries.forM fun e => do
    unless old.entry? e.1 = some e.2 do
      match e.2 with
      | .folder => IO.FS.createDirAll e.1.shown
      | .file octets =>
        IO.FS.writeBinFile e.1.shown (ByteArray.mk octets.toArray)

/-- The two streams get their texts. -/
def showConsole (c : Console) : IO Unit := do
  (← IO.getStdout).putStr c.out
  (← IO.getStderr).putStr c.err

/-- A command line is run; the answer is the exit code. -/
def runProgram (args : List String) : IO UInt32 := do
  let here := Route.ofText (toString (← IO.currentDir))
  let s : Station :=
    ⟨(here.resolve? []).getD [], "linux", schemaMessage?⟩
  let t ← loadFiles s args
  match runCommandLine s t args with
  | .help =>
    (← IO.getStdout).putStr usageText
    return 0
  | .badUsage =>
    (← IO.getStderr).putStr usageText
    return 2
  | .finished exit c =>
    storeFiles t c.tree
    showConsole c
    return UInt32.ofNat exit
  | .broken _ c =>
    storeFiles t c.tree
    showConsole c
    (← IO.getStderr).putStr "objc_bindgen: the input is not as it has to be\n"
    return 1

end HeaderBinding

/-- The entry point. -/
def main (args : List String) : IO UInt32 :=
  HeaderBinding.runProgram args
