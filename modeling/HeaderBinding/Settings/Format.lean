/-
The forms of output.

* `OutputFormat`: C# text or JSON;
* `OutputFormat.ofLabel?`: the form of a name;
* `OutputFormat.fileSuffix`: the ending of its files.
-/

namespace HeaderBinding

/-- A form of writing. -/
inductive OutputFormat
  | csharp
  | json
deriving DecidableEq, Repr

/-- The name of a form. -/
def OutputFormat.label : OutputFormat → String
  | csharp => "csharp"
  | json => "json"

/-- The names of the forms. -/
def outputFormats : List String :=
  [OutputFormat.csharp, .json].map OutputFormat.label

/-- The form of a name. -/
def OutputFormat.ofLabel? (name : String) : Option OutputFormat :=
  [OutputFormat.csharp, .json].find? (·.label == name)

/-- The ending of the files of a form. -/
def OutputFormat.fileSuffix : OutputFormat → String
  | csharp => ".cs"
  | json => ".json"

end HeaderBinding
