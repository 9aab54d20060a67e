/-
The words of a command line.

* `OptionName`: the options, and whether a value belongs to them;
* `readWord?`: a word as one that stands for itself, as the divider behind
  which all words do, or as an option.  A long option may be cut short as
  long as no other option starts like that; if one does, the word has no
  reading.
-/
import HeaderBinding.Text.Character
import HeaderBinding.Text.Search

namespace HeaderBinding

/-- The options of all commands. -/
inductive OptionName
  | help
  | version
  | framework
  | slice
  | config
  | noMacroHeuristic
  | addExternMacro
  | addSkipMacro
  | output
  | check
  | dryRun
  | failOnWarnings
  | compact
  | outputDir
  | namespaceName
  | format
deriving DecidableEq, Repr

/-- The option as it is written. -/
def OptionName.label : OptionName → String
  | help => "--help"
  | version => "--version"
  | framework => "--framework"
  | slice => "--slice"
  | config => "--config"
  | noMacroHeuristic => "--no-macro-heuristic"
  | addExternMacro => "--extern-macro"
  | addSkipMacro => "--skip-macro"
  | output => "--output"
  | check => "--check"
  | dryRun => "--dry-run"
  | failOnWarnings => "--fail-on-warnings"
  | compact => "--compact"
  | outputDir => "--output-dir"
  | namespaceName => "--namespace"
  | format => "--format"

/-- A value belongs to the option. -/
def OptionName.takesValue : OptionName → Bool
  | help | version | noMacroHeuristic | check | dryRun | failOnWarnings
  | compact => false
  | _ => true

/-- A word of a command line. -/
inductive ArgWord
  | plain (text : String)
  | divider
  /-- An option, with the value that is written behind an equals sign. -/
  | option (name : OptionName) (value? : Option String)
  | unknown
deriving DecidableEq, Repr

/-- The text is a row of decimal digits, the line feed that it may end with
apart. -/
def isDigitRow (cs : List Char) : Bool :=
  cs.head?.any isDecimal && endsHere (cs.dropWhile isDecimal)

/-- The word reads as a negative number: a dash, and decimal digits that a
point may stand before or among. -/
def isNegativeNumber (cs : List Char) : Bool :=
  match cs with
  | '-' :: rest =>
    match rest.dropWhile isDecimal with
    | '.' :: places => isDigitRow places
    | _ => isDigitRow rest
  | _ => false

/-- A word with a dash that names no option. -/
def readStrangeWord (text : String) : ArgWord :=
  if isNegativeNumber text.toList || text.toList.contains ' ' then
    .plain text
  else .unknown

/-- The short form of the option for help, with `more` behind its letter.
The letter may be repeated, and an equals sign may stand in front of the
repetition.  Anything else is a value, which the option does not have. -/
def readShortHelp (more : List Char) : ArgWord :=
  let value := (['='].isPrefixOf? more).getD more
  if more.isEmpty || (!value.isEmpty && value.all (· = 'h')) then
    .option .help none
  else .option .help (some (String.ofList value))

/-- The word before its first equals sign, and what follows it. -/
def splitValue (cs : List Char) : List Char × Option String :=
  match cutAt? ['='] cs with
  | some sides => (sides.1, some (String.ofList sides.2))
  | none => (cs, none)

/-- A word that starts with a dash; it has no reading if it could stand
for several options. -/
def readDashWord? (known : List OptionName) (text : String) :
    Option ArgWord :=
  let split := splitValue text.toList
  match known.find? fun o => o.label.toList == split.1 with
  | some o => some (.option o split.2)
  | none =>
    match text.toList with
    | '-' :: '-' :: _ =>
      match known.filter fun o => split.1.isPrefixOf o.label.toList with
      | [] => some (readStrangeWord text)
      | [o] => some (.option o split.2)
      | _ => none
    | '-' :: 'h' :: more => some (readShortHelp more)
    | _ => some (readStrangeWord text)

/-- A word before the divider. -/
def readWord? (known : List OptionName) (text : String) :
    Option ArgWord :=
  match text.toList with
  | '-' :: _ :: _ => readDashWord? known text
  | _ => some (.plain text)

/-- The words of a command line, if all of them can be read. -/
def readWords? (known : List OptionName) :
    List String → Option (List ArgWord)
  | [] => some []
  | text :: rest =>
    if text = "--" then some (.divider :: rest.map .plain)
    else do
      let word ← readWord? known text
      let words ← readWords? known rest
      return word :: words

end HeaderBinding
