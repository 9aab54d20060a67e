/-
The C# text of declarations.

* `Member.lines`, `Declaration.lines`: the lines of one member and of one
  declaration;
* `sourceText`: the text of a file;
* `batchText`: the texts of some files in one.
-/
import HeaderBinding.Binding.Using
import HeaderBinding.Header.Basic

namespace HeaderBinding

/-! ### Lines of members -/

/-- What stands before the members of a declaration. -/
def memberIndent : String := "    "

/-- The attributes, one a line.  That a value may be missing stands on the
line of the selector that follows. -/
def attributeLines (indent : String) : List Attribute → List String
  | [] => []
  | [a] => [indent ++ a.render]
  | a :: b :: rest =>
    if a.name = "NullAllowed" ∧ a.target? = none ∧ b.name = "Export" then
      (indent ++ "[" ++ a.inner ++ ", " ++ b.inner ++ "]")
        :: attributeLines indent rest
    else (indent ++ a.render) :: attributeLines indent (b :: rest)

/-- Some attributes in a line, each with a space behind it. -/
def attributePrelude (attributes : List Attribute) : String :=
  String.join (attributes.map (·.render ++ " "))

/-- A parameter as it is written. -/
def BoundParameter.render (p : BoundParameter) : String :=
  attributePrelude p.attributes ++ p.type ++ " " ++ p.name

/-- Parameters in parentheses. -/
def parameterList (ps : List BoundParameter) : String :=
  "(" ++ ", ".intercalate (ps.map BoundParameter.render) ++ ")"

/-- An accessor as it is written. -/
def Accessor.render (a : Accessor) : String :=
  attributePrelude a.attributes ++ a.kind.label ++ ";"

/-- Accessors in braces. -/
def accessorList (as : List Accessor) : String :=
  "\x7b " ++ " ".intercalate (as.map Accessor.render) ++ " \x7d"

/-- A comment, if there is one. -/
def commentLines (indent : String) (comment? : Option String) :
    List String :=
  ((comment?.filter (· ≠ "")).map (indent ++ "// " ++ ·)).toList

/-- The type and the name, marked if the type is unsafe. -/
def Member.typedName (m : Member) : String :=
  (if m.isUnsafe then "unsafe " else "") ++ m.type ++ " " ++ m.name

/-- The line that declares the member, without what stands around it. -/
def Member.core (m : Member) : String :=
  match m.kind with
  | .value =>
    m.name ++ ((m.value?.map (" = " ++ ·)).getD "") ++ ","
  | .constructor =>
    "NativeHandle Constructor " ++ parameterList m.parameters ++ ";"
  | .function =>
    "static extern " ++ m.typedName ++ " " ++ parameterList m.parameters
      ++ ";"
  | .method => m.typedName ++ " " ++ parameterList m.parameters ++ ";"
  | _ =>
    if m.accessors.isEmpty then "public " ++ m.typedName ++ ";"
    else m.typedName ++ " " ++ accessorList m.accessors

/-- The lines of a member.  A blank line follows all but the cases of an
enumeration. -/
def Member.lines (m : Member) : List String :=
  commentLines memberIndent m.comment?
    ++ attributeLines memberIndent m.attributes
    ++ (memberIndent ++ m.core) :: if m.kind = .value then [] else [""]

/-! ### Lines of declarations -/

/-- The lines without an empty one at the end. -/
def dropBlankEnd (lines : List String) : List String :=
  if lines.getLast? = some "" then lines.dropLast else lines

/-- The members of a declaration in braces. -/
def bodyLines (members : List Member) : List String :=
  dropBlankEnd ("\x7b" :: members.flatMap Member.lines) ++ ["\x7d", ""]

/-- The line that starts a declaration. -/
def Declaration.headLine (d : Declaration) : String :=
  match d.kind with
  | .enum => "public enum " ++ d.name ++ " : " ++ d.backing?.getD ""
  | .struct => "public struct " ++ d.name
  | .functions => "static class " ++ d.name
  | .constants => "partial interface " ++ d.name
  | .delegate =>
    let returned := (d.returnType?.filter (· ≠ "")).getD "void"
    let types := returned :: d.parameters.map (·.type)
    (if types.any (·.toList.contains '*') then "unsafe " else "")
      ++ "delegate " ++ returned ++ " " ++ d.name ++ " "
      ++ parameterList d.parameters ++ ";"
  | _ =>
    "interface " ++ d.name
      ++ if d.bases.isEmpty then "" else " : " ++ ", ".intercalate d.bases

/-- The lines of a declaration, with an empty one at the end. -/
def Declaration.lines (d : Declaration) : List String :=
  match d.kind with
  | .delegate => commentLines "" d.comment? ++ [d.headLine, ""]
  | .functions => d.headLine :: bodyLines d.members
  | .enum | .struct | .constants =>
    attributeLines "" d.attributes ++ d.headLine :: bodyLines d.members
  | _ =>
    commentLines "" d.comment? ++ attributeLines "" d.attributes
      ++ d.headLine :: bodyLines d.members

/-- The announced names, as comments. -/
def ForwardNames.lines (n : ForwardNames) : List String :=
  let lines := n.classes.map ("// @class " ++ · ++ ";")
    ++ n.protocols.map ("// @protocol " ++ · ++ ";")
  if lines.isEmpty then [] else lines ++ [""]

/-! ### Files -/

/-- The lines without the empty ones at the end. -/
def dropBlankEnds (lines : List String) : List String :=
  (lines.reverse.dropWhile (· = "")).reverse

/-- The C# text of some declarations from a file, in a namespace. -/
def sourceText (file space : String) (forward : ForwardNames)
    (ds : List Declaration) : String :=
  let lines :=
    "// <auto-generated />"
      :: (if file = "" then []
        else ["// Generated by objc_bindgen from " ++ file])
      ++ (usings ds).map ("using " ++ · ++ ";") ++ [""]
      ++ (if space = "" then [] else ["namespace " ++ space ++ ";", ""])
      ++ forward.lines ++ ds.flatMap Declaration.lines
  "\n".intercalate (dropBlankEnds lines) ++ "\n"

/-- The C# text of a header from its declarations. -/
def Header.sourceText (space : String) (h : Header)
    (ds : List Declaration) : String :=
  HeaderBinding.sourceText h.file space h.forward ds

/-- The C# text of some headers from their declarations; if they are
several, each starts with a line that names its file. -/
def batchText (space : String) (hs : List Header)
    (dss : List (List Declaration)) : String :=
  let texts := List.zipWith (Header.sourceText space) hs dss
  "\n".intercalate (if hs.length ≤ 1 then texts
    else List.zipWith (fun (h : Header) text =>
      "// ========== " ++ h.file ++ " ==========\n" ++ text) hs texts)

end HeaderBinding
