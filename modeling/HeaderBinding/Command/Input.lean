/-
What a command works on.

* `readSettings`: the settings of a file, with those of the command line;
* `headerPlaces`: the headers that are named and those of a bundle;
* `readInput`: the settings, and what the headers declare;
* `reportDiagnostics`: the remarks on them.
-/
import HeaderBinding.Command.Arguments
import HeaderBinding.Command.Console
import HeaderBinding.Files.Route
import HeaderBinding.Header.Read

namespace HeaderBinding

/-- Where a command is run. -/
structure Station where
  /-- The folder from which places are seen. -/
  folder : Path
  platform : String
  /-- The validator of settings files: what it tells about one that does
  not keep to the schema. -/
  schemaMessage? : Json → Option String

/-- The place that a text means, which must mean one. -/
def Station.place (s : Station) (text : String) : Action Path :=
  match (Route.ofText text).resolve? s.folder with
  | some p => return p
  | none => throw .noPlace

/-! ### Settings -/

/-- The value in a settings file, which keeps to all rules. -/
def checkedSettings (s : Station) (file : Json) :
    Except CommandFault Json :=
  match checkSettings file with
  | .error f => .error (.badSettings f)
  | .ok _ =>
    match s.schemaMessage? file with
    | some message => .error (.badSchema message)
    | none => .ok file

/-- The settings of a file. -/
def readSettingsFile (s : Station) (p : Path) : Action Settings := do
  let text ← loadText p .unreadableSettings
  match readJson text with
  | .error f => throw (.badJson p text f)
  | .ok file =>
    return ({} : Settings).update (← liftExcept (checkedSettings s file))
where
  /-- A value, or the fault that stops the command. -/
  liftExcept {α : Type} : Except CommandFault α → Action α
    | .ok a => pure a
    | .error f => throw f

/-- The settings of a run. -/
def readSettings (s : Station) (config? : Option String)
    (overrides : Overrides) : Action Settings := do
  let settings ← match nonempty? config? with
    | some text => readSettingsFile s (← s.place text)
    | none => pure {}
  return settings.override overrides

/-! ### Headers -/

/-- The place of a header that is named. -/
def namedHeader (s : Station) (text : String) : Action Path := do
  let p ← s.place text
  if (← lookUp p).any FileEntry.isFile then return p
  else throw (.noFile p)

/-- The headers of a bundle. -/
def bundlePlaces (s : Station) (bundle : Path) (slice? : Option String) :
    Action (List Path) := do
  discard (lookUp bundle)
  match bundleHeaders (← currentFiles) bundle slice? s.platform with
  | .ok places => return places
  | .error f => throw (.bundle bundle f)

/-- The headers of the bundle that is named, if one is. -/
def frameworkPlaces (s : Station) (a : Arguments) :
    Action (List Path) := do
  match nonempty? a.framework? with
  | some text =>
    let bundle ← s.place text
    let places ← bundlePlaces s bundle a.slice?
    if places.isEmpty then throw (.noHeaders bundle)
    return places
  | none =>
    if (nonempty? a.slice?).isSome then throw .sliceWithoutBundle
    return []

/-- All headers to read, of which there must be one. -/
def headerPlaces (s : Station) (a : Arguments) : Action (List Path) := do
  let named ← a.files.mapM (namedHeader s)
  let places := named ++ (← frameworkPlaces s a)
  if places.isEmpty then throw .noInput
  return places

/-- The declarations of a header. -/
def readHeaderFile (rules : MacroRules) (p : Path) : Action Header := do
  let octets ← loadOctets p .unreadableHeader
  let text := unifyLineEnds (readLenient octets)
  return readHeader rules p.name (String.ofList text)

/-- The settings of a run and the declarations of its headers. -/
def readInput (s : Station) (a : Arguments) :
    Action (Settings × List Header) := do
  let settings ← readSettings s a.config? a.settings
  let places ← headerPlaces s a
  return (settings, ← places.mapM (readHeaderFile settings.rules))

/-- A remark as it is shown to the user. -/
def Header.warning (h : Header) (d : Diagnostic) : String :=
  "[" ++ h.file ++ "] warning: " ++ d.describe

/-- The remarks on some headers. -/
def warnings (hs : List Header) : List String :=
  hs.flatMap fun h => h.diagnostics.map h.warning

/-- The remarks on some headers are shown; the answer is whether there
are any. -/
def reportDiagnostics (hs : List Header) : Action Bool := do
  (warnings hs).forM (say .err)
  return !(warnings hs).isEmpty

end HeaderBinding
