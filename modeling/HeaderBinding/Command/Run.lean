/-
The commands.

* `runParse`: the declarations of headers as JSON;
* `runGenerate`: the bindings of headers;
* `runListSlices`, `runListHeaders`: what a bundle holds;
* `runCommandLine`: what a command line does.
-/
import HeaderBinding.Binding.Output
import HeaderBinding.Binding.Place
import HeaderBinding.Command.Artifact
import HeaderBinding.Command.Input

namespace HeaderBinding

/-- The exit code that tells whether something is out of date or, if that
is asked for, was remarked. -/
def exitCode (a : Arguments) (outOfDate remarked : Bool) : Nat :=
  if outOfDate || (a.failOnWarnings && remarked) then 1 else 0

/-- A text goes to the file that is named for it, or is shown; nothing is
shown of one without octets.  The answer is whether the file is out of
date. -/
def writeOrSay (s : Station) (label : String) (a : Arguments)
    (text? : Option String) : Action Bool := do
  match nonempty? a.output? with
  | some output => writeArtifact? label a (← s.place output) text?
  | none =>
    if a.check then throw .checkWithoutOutput
    match text? with
    | some text =>
      print .out text
      return false
    | none => throw .unencodable

/-- The declarations of headers as JSON, with a line feed at the end. -/
def declarationText (compact : Bool) (hs : List Header) : String :=
  let v := Json.ofListOrOne (hs.map Header.toJson)
  if compact then v.compact ++ "\n" else v.pretty

/-- Headers are read, and their declarations are written as JSON. -/
def runParse (s : Station) (a : Arguments) : Action Nat := do
  let (_, hs) ← readInput s a
  let remarked ← reportDiagnostics hs
  let outOfDate ←
    writeOrSay s "parse" a (some (declarationText a.compact hs))
  return exitCode a outOfDate remarked

/-- The declarations that bind some headers together. -/
def bindHeaders (hs : List Header) : Action (List (List Declaration)) :=
  match assembleHeaders? hs with
  | some dss => return dss
  | none => throw .endlessType

/-- The place of the file for a header in a folder. -/
def outputPlace (folder : Path) (format : OutputFormat) (h : Header) :
    Path :=
  folder ++ [fileStem h.file ++ format.fileSuffix]

/-- Every header gets a file of its own in a folder.  The answer is
whether one of them is out of date. -/
def writeEach (a : Arguments) (folder : Path) (format : OutputFormat)
    (space : LooseText) (bound : List (Header × List Declaration)) :
    Action Bool := do
  let drifts ← bound.mapM fun (h, ds) =>
    writeArtifact? "generate" a (outputPlace folder format h)
      ((format.space? space).map (renderOne format · h ds))
  return drifts.any id

/-- Headers are read, and their bindings are written. -/
def runGenerate (s : Station) (a : Arguments) : Action Nat := do
  let (settings, hs) ← readInput s a
  let remarked ← reportDiagnostics hs
  let format := settings.outputFormat
  let outOfDate ← match nonempty? a.outputDir? with
    | some folder =>
      if (nonempty? a.output?).isSome then throw .outputTwice
      let folder ← s.place folder
      let dss ← bindHeaders hs
      writeEach a folder format settings.space (hs.zip dss)
    | none =>
      let dss ← bindHeaders hs
      writeOrSay s "generate" a
        ((format.space? settings.space).map (renderBatch format · hs dss))
  return exitCode a outOfDate remarked

/-- The names of the slices of a bundle are shown. -/
def runListSlices (s : Station) (a : Arguments) : Action Nat := do
  let bundle ← s.place (a.framework?.getD "")
  discard (lookUp bundle)
  match sliceNames? (← currentFiles) bundle with
  | some names => names.forM (say .out)
  | none => throw (.bundle bundle .noBundle)
  return 0

/-- The places of the headers of a bundle are shown. -/
def runListHeaders (s : Station) (a : Arguments) : Action Nat := do
  let bundle ← s.place (a.framework?.getD "")
  let places ← bundlePlaces s bundle a.slice?
  (places.map Path.shown).forM (say .out)
  return 0

/-- A command does its work. -/
def CommandName.action (s : Station) (a : Arguments) :
    CommandName → Action Nat
  | parse => runParse s a
  | generate => runGenerate s a
  | listSlices => runListSlices s a
  | listHeaders => runListHeaders s a

/-! ### Command lines -/

/-- The name of the program. -/
def programName : String := "objc_bindgen"

/-- The version of the program. -/
def programVersion : String := "1.0.0"

/-- What comes of a command line. -/
inductive Outcome
  | help
  | badUsage
  /-- The program ends with an exit code. -/
  | finished (exit : Nat) (console : Console)
  /-- The program breaks off at a fault about which nothing is told. -/
  | broken (fault : CommandFault) (console : Console)
deriving Repr

/-- What comes of the action of a command.  A fault with a message is
told, and the exit code is 2. -/
def Outcome.ofAction (act : Action Nat) (tree : FileTree) : Outcome :=
  match act.run { tree := tree } with
  | (.ok exit, c) => .finished exit c
  | (.error f, c) =>
    match f.message? with
    | some text =>
      .finished 2
        { c with
          err := c.err ++ programName ++ " error: " ++ text ++ "\n" }
    | none => .broken f c

/-- What a command line does, among some files. -/
def runCommandLine (s : Station) (tree : FileTree)
    (texts : List String) : Outcome :=
  match readCommandLine texts with
  | .help => .help
  | .badUsage => .badUsage
  | .version =>
    .finished 0
      { tree := tree, out := programName ++ " " ++ programVersion ++ "\n" }
  | .run command a => .ofAction (command.action s a) tree

end HeaderBinding
