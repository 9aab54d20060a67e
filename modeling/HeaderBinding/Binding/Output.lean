/-
Bound headers as they are written, as C# text or as JSON.

* `renderOne`: a header by itself, from its declarations;
* `renderBatch`: some headers that are bound together, in one text;
* `OutputFormat.space?`: the namespace as a form writes it, if it can.
-/
import HeaderBinding.Binding.Encode
import HeaderBinding.Binding.Source
import HeaderBinding.Json.Writer
import HeaderBinding.Settings.Format

namespace HeaderBinding

/-- The declarations of a header as JSON, with the name of its file. -/
def Header.boundJson (h : Header) (ds : List Declaration) : Json :=
  .ofFields [("file", .str h.file),
    ("declarations", .ofList Declaration.toJson ds)]

/-- A header from its declarations. -/
def renderOne (format : OutputFormat) (space : String) (h : Header)
    (ds : List Declaration) : String :=
  match format with
  | .csharp => h.sourceText space ds
  | .json => (h.boundJson ds).pretty

/-- A value that stands alone is not put into an array. -/
def Json.ofListOrOne : List Json → Json
  | [v] => v
  | vs => .arr vs

/-- Some headers from their declarations. -/
def renderBatch (format : OutputFormat) (space : String)
    (hs : List Header) (dss : List (List Declaration)) : String :=
  match format with
  | .csharp => batchText space hs dss
  | .json =>
    (Json.ofListOrOne (List.zipWith Header.boundJson hs dss)).pretty

/-- The namespace as the form writes it, if it can: half of a surrogate
pair has no octets.  JSON does not tell the namespace. -/
def OutputFormat.space? (space : LooseText) : OutputFormat → Option String
  | csharp => space.plain?
  | json => some ""

end HeaderBinding
