/-
The schema of a settings file: every section is an object of known fields,
and every value that is given has its type.

* `settingsSchema`: the sections, their fields and the kinds of values;
* `Conforms`: a value keeps to the schema;
* `schemaFaults`: all places where a value does not;
* `schemaFault?`: the one that is told: the nearest to the root, and of
  those the last in the order of names; `schemaMessage?`: its wording.
-/
import HeaderBinding.Json.Shown
import HeaderBinding.Settings.Format
import HeaderBinding.Text.Order

namespace HeaderBinding

/-- A kind of values. -/
inductive ValueKind
  | truth
  | names
  | text
  | choice (allowed : List String)
deriving DecidableEq, Repr

/-- The fields of the sections, and the kinds of their values. -/
def settingsSchema : List (String × List (String × ValueKind)) :=
  [("lexer",
      [("macro_heuristic", .truth), ("extern_macros", .names),
        ("extra_skip_macros", .names)]),
    ("output", [("namespace", .text), ("format", .choice outputFormats)])]

/-! ### Faults -/

/-- What a value can do against the schema. -/
inductive SchemaFaultKind
  | wrongType (value : Json) (expected : String)
  | extraKeys (names : List LooseText)
  | emptyText
  | notAllowed (value : LooseText) (allowed : List String)
deriving Repr

/-- A fault, and the names that lead to its place. -/
structure SchemaFault where
  path : List String
  kind : SchemaFaultKind
deriving Repr

/-- The wording of a fault, without its place. -/
def SchemaFault.message (f : SchemaFault) : String :=
  match f.kind with
  | .wrongType value expected =>
    value.shownInside ++ " is not of type " ++ quotedText expected
  | .extraKeys names =>
    "Additional properties are not allowed ("
      ++ ", ".intercalate (names.map quotedText)
      ++ (if names.length = 1 then " was" else " were") ++ " unexpected)"
  | .emptyText => "'' should be non-empty"
  | .notAllowed value allowed =>
    quotedText value ++ " is not one of ["
      ++ ", ".intercalate (allowed.map fun (s : String) => quotedText s) ++ "]"

/-- The faults of a text that must not be empty. -/
def textFaults (path : List String) : Json → List SchemaFault
  | .str text => if text.isEmpty then [⟨path, .emptyText⟩] else []
  | v => [⟨path, .wrongType v "string"⟩]

/-- The faults of a value. -/
def valueFaults (path : List String) (kind : ValueKind) (v : Json) :
    List SchemaFault :=
  match kind, v with
  | .truth, .bool _ => []
  | .truth, v => [⟨path, .wrongType v "boolean"⟩]
  | .names, .arr items =>
    (items.mapIdx fun i item =>
      textFaults (path ++ [toString i]) item).flatten
  | .names, v => [⟨path, .wrongType v "array"⟩]
  | .text, v => textFaults path v
  | .choice allowed, .str text =>
    if (allowed.map LooseText.ofString).contains text then []
    else [⟨path, .notAllowed text allowed⟩]
  | .choice _, v => [⟨path, .wrongType v "string"⟩]

/-- The names of the fields that a schema does not know, in order. -/
def extraKeys {α : Type} (schema : List (String × α))
    (fields : List (LooseText × Json)) : List LooseText :=
  let known := schema.map fun s => LooseText.ofString s.1
  ((fields.map (·.1)).filter (!known.contains ·)).mergeSort
    LooseText.before

/-- The faults of an object: the fields that are not known, and those of
the known fields. -/
def objectFaults {α : Type} (path : List String)
    (schema : List (String × α))
    (faults : List String → α → Json → List SchemaFault) :
    Json → List SchemaFault
  | .obj fields =>
    let extra := extraKeys schema fields
    (if extra.isEmpty then [] else [⟨path, .extraKeys extra⟩])
      ++ schema.flatMap fun s =>
        match fields.lookup (LooseText.ofString s.1) with
        | some v => faults (path ++ [s.1]) s.2 v
        | none => []
  | v => [⟨path, .wrongType v "object"⟩]

/-- All faults of a settings file. -/
def schemaFaults (file : Json) : List SchemaFault :=
  objectFaults [] settingsSchema
    (fun path fields => objectFaults path fields valueFaults) file

/-- The value keeps to the schema. -/
def Conforms (file : Json) : Prop :=
  schemaFaults file = []

/-- The second fault is told rather than the first. -/
def SchemaFault.outdoneBy (f g : SchemaFault) : Bool :=
  g.path.length < f.path.length
    || (g.path.length == f.path.length && !namesBefore g.path f.path)

/-- The fault that is told, if there is one. -/
def schemaFault? (file : Json) : Option SchemaFault :=
  match schemaFaults file with
  | [] => none
  | f :: fs =>
    some (fs.foldl (fun best g => if best.outdoneBy g then g else best) f)

/-- What is told about a file that does not keep to the schema. -/
def schemaMessage? (file : Json) : Option String :=
  (schemaFault? file).map SchemaFault.message

end HeaderBinding
