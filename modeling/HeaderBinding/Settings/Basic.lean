/-
The settings of a run.

* `Settings`: the rules for macros, the namespace and the form of the
  output;
* `Settings.update`: the settings with those that a file gives;
* `Overrides`, `Settings.override`: the settings with those that the
  command line gives.
-/
import HeaderBinding.Json.Basic
import HeaderBinding.Settings.Format
import HeaderBinding.Token.MacroRules

namespace HeaderBinding

/-- The namespace of the output, if none is chosen. -/
def defaultSpace : String := "Bindings"

/-- The settings of a run. -/
structure Settings where
  heuristic : Bool := true
  externNames : List LooseText := []
  skipNames : List LooseText := []
  space : LooseText := defaultSpace
  format : String := OutputFormat.csharp.label
deriving DecidableEq, Repr

/-- The rules for macros.  A name with half of a surrogate pair is that of
no word in a header. -/
def Settings.rules (s : Settings) : MacroRules :=
  ⟨s.heuristic, s.externNames.filterMap LooseText.plain?,
    s.skipNames.filterMap LooseText.plain?⟩

/-- The form of the output. -/
def Settings.outputFormat (s : Settings) : OutputFormat :=
  (OutputFormat.ofLabel? s.format).getD .csharp

/-! ### Files -/

/-- The value of a field of a section. -/
def settingIn? (file : Json) (part field : String) : Option Json :=
  (file.field? part).bind (Json.field? field)

/-- A truth value. -/
def Json.bool? : Json → Option Bool
  | .bool b => some b
  | _ => none

/-- A text. -/
def Json.text? : Json → Option LooseText
  | .str text => some text
  | _ => none

/-- The texts of an array. -/
def Json.texts? : Json → Option (List LooseText)
  | .arr items => some (items.filterMap Json.text?)
  | _ => none

/-- The settings with those of a file in place of them. -/
def Settings.update (s : Settings) (file : Json) : Settings :=
  let lexer := settingIn? file "lexer"
  let output := settingIn? file "output"
  { heuristic :=
      ((lexer "macro_heuristic").bind Json.bool?).getD s.heuristic
    externNames :=
      ((lexer "extern_macros").bind Json.texts?).getD s.externNames
    skipNames :=
      ((lexer "extra_skip_macros").bind Json.texts?).getD s.skipNames
    space := ((output "namespace").bind Json.text?).getD s.space
    format :=
      (((output "format").bind Json.text?).bind LooseText.plain?).getD
        s.format }

/-! ### Command lines -/

/-- What the command line says about the settings.  An empty text says
nothing. -/
structure Overrides where
  noHeuristic : Bool := false
  externNames : List String := []
  skipNames : List String := []
  space? : Option String := none
  format? : Option String := none
deriving DecidableEq, Repr

/-- A text, unless it is empty. -/
def nonempty? (s? : Option String) : Option String :=
  s?.filter (· ≠ "")

/-- The settings with those of the command line; lists of names grow. -/
def Settings.override (s : Settings) (o : Overrides) : Settings :=
  { heuristic := s.heuristic && !o.noHeuristic
    externNames := s.externNames ++ o.externNames.map LooseText.ofString
    skipNames := s.skipNames ++ o.skipNames.map LooseText.ofString
    space := ((nonempty? o.space?).map LooseText.ofString).getD s.space
    format := (nonempty? o.format?).getD s.format }

end HeaderBinding
