/-
The names and values of an enumeration.

* `stripEnumPrefix`: a name without the name of its enumeration;
* `enumRenames`: the names of an enumeration, old and new;
* `cleanEnumValue`: a value in terms of the new names, which are templates,
  and of the limits that C# has names for.
-/
import HeaderBinding.Text.Search
import HeaderBinding.Text.Template
import HeaderBinding.Text.Word

namespace HeaderBinding

/-- The name without that of its enumeration and the underscores behind
it, if what is left starts with a capital. -/
def stripEnumPrefix (enumName name : String) : String :=
  match enumName.toList.isPrefixOf? name.toList with
  | some rest =>
    let rest := rest.dropWhile (· = '_')
    if rest.head?.any isCapital then String.ofList rest else name
  | none => name

/-- The limits of number types, and what C# calls them. -/
def limitConstants : List (String × String) :=
  [("UINT8_MAX", "byte.MaxValue"), ("UINT16_MAX", "ushort.MaxValue"),
    ("UINT32_MAX", "uint.MaxValue"), ("UINT64_MAX", "ulong.MaxValue"),
    ("UINT_MAX", "uint.MaxValue"), ("INT8_MAX", "sbyte.MaxValue"),
    ("INT16_MAX", "short.MaxValue"), ("INT32_MAX", "int.MaxValue"),
    ("INT64_MAX", "long.MaxValue"), ("INT_MAX", "int.MaxValue"),
    ("NSIntegerMax", "long.MaxValue"),
    ("NSUIntegerMax", "ulong.MaxValue")]

/-- The names of an enumeration, each once, with the names they get. -/
def enumRenames (enumName : String) (names : List String) :
    List (String × String) :=
  names.eraseDups.map fun name => (name, stripEnumPrefix enumName name)

/-- The text with one word after the other replaced. -/
def replaceWords (renames : List (String × String)) (cs : List Char) :
    List Char :=
  renames.foldl
    (fun text r => replaceWord r.1.toList r.2.toList text) cs

/-- A shift whose two brackets came apart is joined again. -/
def joinShifts (cs : List Char) : List Char :=
  replaceAll "> >".toList ">>".toList
    (replaceAll "< <".toList "<<".toList cs)

/-- The names that are not kept, each with the text that its new name
stands for as a template. -/
def filledRenames (renames : List (String × String)) :
    Except TemplateFault (List (String × String)) :=
  (renames.filter fun r => r.1 ≠ r.2).mapM fun r =>
    (fillTemplate r.1.toList r.2.toList).map fun new =>
      (r.1, String.ofList new)

/-- A value with the limits and then the names replaced, in the order of
the names. -/
def cleanEnumValue (renames : List (String × String)) (value : String) :
    Except TemplateFault String :=
  (filledRenames renames).map fun filled =>
    String.ofList (replaceWords filled
      (replaceWords limitConstants (joinShifts value.toList)))

end HeaderBinding
