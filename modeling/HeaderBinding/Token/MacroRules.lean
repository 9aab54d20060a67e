/-
Which words of a header are macros that stand for nothing, and which stand
for `extern`.

* `MacroRules`: the choices of a run;
* `isExternMacro`: the word is read as `extern`;
* `isLikelyMacro`: the word reads as an upper-case vendor macro;
* `saysInitUnavailable`: the word marks a class without default
  initialisation, and is always kept.
-/
import HeaderBinding.Text.Search

namespace HeaderBinding

/-- The choices that decide how macros are read. -/
structure MacroRules where
  /-- Words that look like vendor macros are left out. -/
  heuristic : Bool := true
  /-- Further words that stand for `extern`. -/
  externNames : List String := []
  /-- Words that are left out with their arguments, whatever they look
  like. -/
  skipNames : List String := []
deriving DecidableEq, Repr

/-- Macros that carry the structure of a header. -/
def structuralMacros : List String :=
  ["NS_ENUM", "NS_OPTIONS", "NS_CLOSED_ENUM", "NS_ERROR_ENUM",
    "NS_ASSUME_NONNULL_BEGIN", "NS_ASSUME_NONNULL_END",
    "NS_DESIGNATED_INITIALIZER", "NS_REQUIRES_SUPER"]

/-- Upper-case words that are types or constants. -/
def upperCaseNames : List String :=
  ["BOOL", "SEL", "IMP", "NULL", "UINT8_MAX", "UINT16_MAX", "UINT32_MAX",
    "UINT64_MAX", "UINT_MAX", "INT8_MAX", "INT16_MAX", "INT32_MAX",
    "INT64_MAX", "INT_MAX", "INT8_MIN", "INT16_MIN", "INT32_MIN",
    "INT64_MIN", "INT_MIN", "CGFLOAT_MAX", "CGFLOAT_MIN"]

/-- Macros that always stand for `extern`. -/
def commonExternMacros : List String :=
  ["FOUNDATION_EXPORT", "FOUNDATION_EXTERN", "UIKIT_EXTERN",
    "APPKIT_EXTERN", "PSPDF_EXPORT"]

/-- Qualifiers that stand for nothing here. -/
def droppedWords : List String :=
  ["__unused", "__kindof"]

/-- The word stands for `extern`. -/
def MacroRules.isExternMacro (rules : MacroRules) (word : String) : Bool :=
  commonExternMacros.contains word || rules.externNames.contains word

/-- The word marks a class that cannot be made by plain
initialisation. -/
def saysInitUnavailable (word : String) : Bool :=
  occursIn "INIT_UNAVAILABLE" word || occursIn "EMPTY_INIT" word

/-- The characters of an upper-case word. -/
def isMacroChar (c : Char) : Bool :=
  c == '_' || c.isUpper || c.isDigit

/-- The word reads as an upper-case vendor macro: three or more capitals,
digits and underscores, with a capital and an underscore among them. -/
def MacroRules.isLikelyMacro (rules : MacroRules) (word : String) : Bool :=
  let cs := word.toList
  rules.heuristic && 3 ≤ cs.length && !structuralMacros.contains word
    && !upperCaseNames.contains word && cs.all isMacroChar
    && cs.contains '_' && cs.any Char.isUpper

end HeaderBinding
