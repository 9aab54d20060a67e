/-
The rules for macros as settings give them.

* `MacroRules.ofJson`: the rules in a settings object.  A list of names may
  also be a text, whose characters are the names, or an object; whatever
  is empty stands for the usual choice.
-/
import HeaderBinding.Json.Shown
import HeaderBinding.Token.MacroRules

namespace HeaderBinding

/-- Why settings give no rules. -/
inductive RulesFault
  /-- The settings are no object. -/
  | notObject
  /-- A list of names is a number or a truth value. -/
  | notNames
deriving DecidableEq, Repr

/-- The names that a value lists. -/
def namesOfJson (v : Json) : Except RulesFault (List String) :=
  if v.isEmpty then .ok []
  else
    match v with
    | .arr items => .ok (items.map Json.shown)
    | .obj fields => .ok (fields.map fun f => f.1.escaped)
    | .str text =>
      .ok ((text.units.filterMap TextUnit.char?).map String.singleton)
    | _ => .error .notNames

/-- The rules in a settings object. -/
def MacroRules.ofJson (settings : Json) : Except RulesFault MacroRules :=
  if settings.isEmpty then .ok {}
  else
    match settings with
    | .obj _ => do
      let names := fun key =>
        namesOfJson ((settings.field? key).getD .null)
      let externNames ← names "extern_macros"
      let skipNames ← names "extra_skip_macros"
      let heuristic :=
        (settings.field? "macro_heuristic").all (!·.isEmpty)
      .ok { heuristic, externNames, skipNames }
    | _ => .error .notObject

end HeaderBinding
