/-
The name of a method, from its selector.

* `baseSelectorName`: what the selector is about;
* `MethodRole`: what else decides the name;
* `methodName`: the name;
* `setterSelector`: the selector of the setter of a property;
* `safeIdentifier`: a name that is no keyword.
-/
import HeaderBinding.Header.Basic
import HeaderBinding.Selector.Phrase

namespace HeaderBinding

/-- The first words of names that need no verb before them. -/
def recognizedVerbs : List String :=
  ["Get", "Set", "Is", "Has", "Can", "Should", "Will", "Did", "Create",
    "Make", "Add", "Remove", "Insert", "Delete", "Update", "Load", "Save",
    "Fetch", "Find", "Perform", "Register", "Unregister", "Show", "Hide",
    "Present", "Dismiss", "Open", "Close", "Start", "Stop", "Begin",
    "End", "Reset", "Apply", "Validate", "Contains", "Copy", "Convert",
    "Compute", "Handle", "Process", "Parse", "Read", "Write", "Send",
    "Request", "Select", "Deselect", "Configure", "Enumerate", "Execute",
    "Invalidate", "Prepare", "Render", "Resolve", "Search", "Sort",
    "Append", "Clear", "Move", "Draw", "Scroll", "Zoom", "Rotate",
    "Import", "Export", "Encode", "Decode", "Cancel", "Pause", "Resume",
    "Refresh", "Reload", "Compare", "Merge", "Filter", "Try"]

/-- The first word of the name is a verb. -/
def startsWithVerb (name : String) : Bool :=
  (splitCamelWords name).head?.any recognizedVerbs.contains

/-- The segment of a selector that a name is made of: the first, or in a
delegate the one behind the sender. -/
def namingSegment (selector : String) (inProtocol : Bool) : String :=
  match colonSegments selector with
  | [] =>
    if inProtocol then (stripSenderPrefix? selector).getD selector
    else selector
  | [segment] =>
    if inProtocol then (stripSenderPrefix? segment).getD segment
    else segment
  | first :: second :: _ =>
    if inProtocol && isSenderSegment first then second else first

/-- What a selector is about, in mixed case. -/
def baseSelectorName (selector : String) (inProtocol : Bool) : String :=
  let segment := namingSegment selector inProtocol
  let short := stripTrailingContext segment
  collapseIsEqualTo
    (renameBlockWord (if short = "" then segment else short))

/-- What decides the name of a method beside its selector. -/
structure MethodRole where
  inProtocol : Bool := false
  returnsValue : Bool := false
  parameterCount : Nat := 0
  isInitializer : Bool := false
  /-- The method belongs to the class and makes an object of it. -/
  isFactory : Bool := false
deriving DecidableEq, Repr

/-- The name of a method.  One that computes a value from parameters gets
a verb if it has none. -/
def methodName (selector : String) (role : MethodRole) : String :=
  let name := pascalCase (baseSelectorName selector role.inProtocol)
  if role.returnsValue ∧ 0 < role.parameterCount ∧ ¬role.isInitializer
      ∧ ¬startsWithVerb name then
    (if role.isFactory then "Create" else "Get") ++ name
  else name

/-- The selector of the setter of a property. -/
def setterSelector (name : String) : String :=
  "set" ++ String.ofList (capitalize name.toList) ++ ":"

/-- The keywords of C#. -/
def csharpKeywords : List String :=
  ["abstract", "as", "base", "bool", "break", "byte", "case", "catch",
    "char", "checked", "class", "const", "continue", "decimal", "default",
    "delegate", "do", "double", "else", "enum", "event", "explicit",
    "extern", "false", "finally", "fixed", "float", "for", "foreach",
    "goto", "if", "implicit", "in", "int", "interface", "internal", "is",
    "lock", "long", "namespace", "new", "null", "object", "operator",
    "out", "override", "params", "private", "protected", "public",
    "readonly", "ref", "return", "sbyte", "sealed", "short", "sizeof",
    "stackalloc", "static", "string", "struct", "switch", "this", "throw",
    "true", "try", "typeof", "uint", "ulong", "unchecked", "unsafe",
    "ushort", "using", "virtual", "void", "volatile", "while"]

/-- The name, marked if it is a keyword. -/
def safeIdentifier (name : String) : String :=
  if csharpKeywords.contains name then "@" ++ name else name

end HeaderBinding
