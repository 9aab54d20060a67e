/-
Whether a file holds settings.

* `checkSettings`: the first fault of the values that are given; a null is
  taken for a value that is not given;
* `SettingsFault.message`: its wording.
-/
import HeaderBinding.Json.Basic
import HeaderBinding.Settings.Format
import HeaderBinding.Text.Order

namespace HeaderBinding

/-- What can be wrong with settings. -/
inductive SettingsFault
  | rootNotObject
  | unknownSections (names : List LooseText)
  | sectionNotObject (name : String)
  | heuristicNotBool
  /-- The list of a field is no array of texts, or one of them is
  empty. -/
  | notNames (field : String)
  | badSpace
  | badFormat
deriving DecidableEq, Repr

/-- The wording of a fault. -/
def SettingsFault.message : SettingsFault → String
  | rootNotObject => "Config root must be a JSON object."
  | unknownSections names =>
    "Config has unknown top-level keys: "
      ++ ", ".intercalate (names.map LooseText.escaped)
  | sectionNotObject name =>
    "Config '" ++ name ++ "' must be an object when specified"
  | heuristicNotBool =>
    "lexer.macro_heuristic must be boolean when specified"
  | notNames field =>
    "lexer." ++ field
      ++ " must be an array of non-empty strings when specified"
  | badSpace =>
    "output.namespace must be a non-empty string when specified"
  | badFormat =>
    "output.format must be one of: " ++ ", ".intercalate outputFormats

/-- A text that is not empty. -/
def isName : Json → Bool
  | .str text => !text.isEmpty
  | _ => false

/-- A value passes a test, unless it is null. -/
def passes (fault : SettingsFault) (test : Json → Bool) :
    Json → Except SettingsFault Unit
  | .null => .ok ()
  | v => if test v then .ok () else .error fault

/-- A truth value. -/
def isTruth : Json → Bool
  | .bool _ => true
  | _ => false

/-- An array of texts that are not empty. -/
def isNameList : Json → Bool
  | .arr items => items.all isName
  | _ => false

/-- The name of a form of output. -/
def isFormatName : Json → Bool
  | .str text => (outputFormats.map LooseText.ofString).contains text
  | _ => false

/-- The value of a field, or null. -/
def fieldOrNull (fields : List (LooseText × Json)) (name : String) : Json :=
  (fields.lookup (LooseText.ofString name)).getD .null

/-- The fields of a section; a null has none. -/
def sectionFields (name : String) :
    Json → Except SettingsFault (List (LooseText × Json))
  | .null => .ok []
  | .obj fields => .ok fields
  | _ => .error (.sectionNotObject name)

/-- The rules for macros. -/
def checkLexer (v : Json) : Except SettingsFault Unit := do
  let fields ← sectionFields "lexer" v
  passes .heuristicNotBool isTruth (fieldOrNull fields "macro_heuristic")
  for name in ["extern_macros", "extra_skip_macros"] do
    passes (.notNames name) isNameList (fieldOrNull fields name)

/-- The choices for the output. -/
def checkOutput (v : Json) : Except SettingsFault Unit := do
  let fields ← sectionFields "output" v
  passes .badSpace isName (fieldOrNull fields "namespace")
  passes .badFormat isFormatName (fieldOrNull fields "format")

/-- The sections of settings. -/
def sectionNames : List String :=
  ["lexer", "output"]

/-- The first fault of some settings, if there is one. -/
def checkSettings : Json → Except SettingsFault Unit
  | .obj fields => do
    let known := sectionNames.map LooseText.ofString
    let unknown := (fields.map (·.1)).filter (!known.contains ·)
    unless unknown.isEmpty do
      throw (.unknownSections (unknown.mergeSort LooseText.before))
    checkLexer (fieldOrNull fields "lexer")
    checkOutput (fieldOrNull fields "output")
  | _ => throw .rootNotObject

end HeaderBinding
