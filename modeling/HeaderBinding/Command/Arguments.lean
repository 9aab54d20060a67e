/-
What a command line asks for.

* `CommandName`, `Arguments`: the command, and what it is given;
* `readCommandWords`: the words behind the name of a command;
* `readCommandLine`: all words of a command line.
-/
import HeaderBinding.Command.Word
import HeaderBinding.Settings.Basic

namespace HeaderBinding

/-! ### Commands -/

/-- The commands. -/
inductive CommandName
  | parse
  | generate
  | listSlices
  | listHeaders
deriving DecidableEq, Repr

/-- The command as it is written. -/
def CommandName.label : CommandName → String
  | parse => "parse"
  | generate => "generate"
  | listSlices => "list-slices"
  | listHeaders => "list-headers"

/-- The command of a name. -/
def CommandName.ofLabel? (name : String) : Option CommandName :=
  [parse, generate, listSlices, listHeaders].find? (·.label == name)

/-- The options of the commands that read headers. -/
def inputOptions : List OptionName :=
  [.help, .framework, .slice, .config, .noMacroHeuristic, .addExternMacro,
    .addSkipMacro, .output, .check, .dryRun, .failOnWarnings]

/-- The options of a command. -/
def CommandName.options : CommandName → List OptionName
  | parse => inputOptions ++ [.compact]
  | generate => inputOptions ++ [.outputDir, .namespaceName, .format]
  | listSlices => [.help, .framework]
  | listHeaders => [.help, .framework, .slice]

/-- Files can be named to the command. -/
def CommandName.takesFiles : CommandName → Bool
  | parse | generate => true
  | _ => false

/-- The command needs a bundle. -/
def CommandName.needsBundle : CommandName → Bool
  | parse | generate => false
  | _ => true

/-- What a command is given. -/
structure Arguments where
  files : List String := []
  framework? : Option String := none
  slice? : Option String := none
  config? : Option String := none
  settings : Overrides := {}
  output? : Option String := none
  outputDir? : Option String := none
  check : Bool := false
  dryRun : Bool := false
  failOnWarnings : Bool := false
  compact : Bool := false
deriving DecidableEq, Repr

/-- The arguments with an option that has no value. -/
def Arguments.setFlag (a : Arguments) : OptionName → Arguments
  | .noMacroHeuristic =>
    { a with settings := { a.settings with noHeuristic := true } }
  | .check => { a with check := true }
  | .dryRun => { a with dryRun := true }
  | .failOnWarnings => { a with failOnWarnings := true }
  | .compact => { a with compact := true }
  | _ => a

/-- The arguments with an option that has a value.  Of several values of
an option the last counts, but the names of macros are gathered. -/
def Arguments.setValue (a : Arguments) (value : String) :
    OptionName → Arguments
  | .framework => { a with framework? := some value }
  | .slice => { a with slice? := some value }
  | .config => { a with config? := some value }
  | .output => { a with output? := some value }
  | .outputDir => { a with outputDir? := some value }
  | .addExternMacro =>
    { a with
      settings := { a.settings with
        externNames := a.settings.externNames ++ [value] } }
  | .addSkipMacro =>
    { a with
      settings := { a.settings with
        skipNames := a.settings.skipNames ++ [value] } }
  | .namespaceName =>
    { a with settings := { a.settings with space? := some value } }
  | .format =>
    { a with settings := { a.settings with format? := some value } }
  | _ => a

/-- The option can have the value. -/
def OptionName.allows (value : String) : OptionName → Bool
  | format => outputFormats.contains value
  | _ => true

/-! ### The words of a command -/

/-- What a command line asks for. -/
inductive Invocation
  | help
  | version
  | badUsage
  | run (command : CommandName) (arguments : Arguments)
deriving DecidableEq, Repr

/-- What was read of the words of a command. -/
structure ArgState where
  arguments : Arguments := {}
  /-- The files were named. -/
  filesRead : Bool := false
  /-- A word was left over. -/
  leftOver : Bool := false
deriving DecidableEq, Repr

/-- The state in which a row of words that stand for themselves was read.
The first such row names the files; of what follows nothing is used. -/
def ArgState.takeRow (s : ArgState) (takesFiles : Bool)
    (texts : List String) : ArgState :=
  if takesFiles && !s.filesRead then
    { s with
      arguments := { s.arguments with files := texts }
      filesRead := true }
  else { s with leftOver := true }

/-- The text of a word that stands for itself. -/
def ArgWord.text? : ArgWord → Option String
  | plain text => some text
  | _ => none

/-- The word is no option. -/
def ArgWord.isPlace : ArgWord → Bool
  | plain _ | divider => true
  | _ => false

/-- The outcome when all words are read. -/
def ArgState.finish (s : ArgState) (command : CommandName) : Invocation :=
  if s.leftOver
      || (command.needsBundle && s.arguments.framework?.isNone) then
    .badUsage
  else .run command s.arguments

/-- The state with an option, if its value is one that it can have. -/
def ArgState.give? (s : ArgState) (name : OptionName)
    (value? : Option String) : Option ArgState :=
  match name.takesValue, value? with
  | true, some value =>
    if name.allows value then
      some { s with arguments := s.arguments.setValue value name }
    else none
  | false, none => some { s with arguments := s.arguments.setFlag name }
  | _, _ => none

/-- The words of a command from a state on.  A value that is not written
behind an equals sign is the word behind the option. -/
def consumeWords (command : CommandName) (s : ArgState) :
    List ArgWord → Invocation
  | [] => s.finish command
  | .unknown :: words =>
    consumeWords command { s with leftOver := true } words
  | .option .help none :: _ => .help
  | .option name value? :: words =>
    match name.takesValue && value?.isNone, words with
    | true, .plain value :: rest =>
      match s.give? name (some value) with
      | some s => consumeWords command s rest
      | none => .badUsage
    | _, words =>
      match s.give? name value? with
      | some s => consumeWords command s words
      | none => .badUsage
  | word :: words =>
    let row := word :: words.takeWhile ArgWord.isPlace
    consumeWords command
      (s.takeRow command.takesFiles (row.filterMap ArgWord.text?))
      (words.dropWhile ArgWord.isPlace)
termination_by words => words.length
decreasing_by
  · simp
  · simp only [List.length_cons]
    omega
  · simp
  · simp only [List.length_cons]
    have := (List.dropWhile_sublist
      (p := ArgWord.isPlace) (l := words)).length_le
    omega

/-- The words behind the name of a command. -/
def readCommandWords (command : CommandName) (texts : List String) :
    Invocation :=
  match readWords? command.options texts with
  | some words => consumeWords command {} words
  | none => .badUsage

/-! ### Command lines -/

/-- The words up to the name of a command, and the texts of all words. -/
def findCommand (leftOver : Bool) :
    List ArgWord → List String → Invocation
  | .plain name :: _, _ :: texts =>
    match CommandName.ofLabel? name with
    | some command =>
      match readCommandWords command texts with
      | .run command arguments =>
        if leftOver then .badUsage else .run command arguments
      | other => other
    | none => .badUsage
  | .option .help none :: _, _ => .help
  | .option .version none :: _, _ => .version
  | .unknown :: words, _ :: texts => findCommand true words texts
  | _, _ => .badUsage

/-- What a command line asks for. -/
def readCommandLine (texts : List String) : Invocation :=
  match readWords? [.help, .version] texts with
  | some words => findCommand false words texts
  | none => .badUsage

end HeaderBinding
