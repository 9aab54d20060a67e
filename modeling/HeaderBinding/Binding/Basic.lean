/-
The C# declarations that a header is bound by.

* `Attribute`: an attribute, with its arguments as they are written;
* `Member`: a member of a declaration, with the mark of unsafe types;
* `Declaration`: a declaration with its members;
* `findAttribute?`, `Member.exportSelector?`, `Declaration.member?`:
  look-ups.
-/
import HeaderBinding.Text.Trim

namespace HeaderBinding

/-- An attribute.  The target tells what it is about, where that is not
the next thing in the text. -/
structure Attribute where
  name : String
  args : List String := []
  target? : Option String := none
deriving DecidableEq, Repr

/-- The attribute without its brackets and its target. -/
def Attribute.inner (a : Attribute) : String :=
  if a.args.isEmpty then a.name
  else a.name ++ " (" ++ ", ".intercalate a.args ++ ")"

/-- The attribute as it is written. -/
def Attribute.render (a : Attribute) : String :=
  let target := match a.target? with
    | some t => if t = "" then "" else t ++ ": "
    | none => ""
  "[" ++ target ++ a.inner ++ "]"

/-- The text between quotation marks. -/
def quoted (s : String) : String :=
  "\"" ++ s ++ "\""

/-- The selector that a member stands for, and how its value is kept. -/
def exportAttribute (selector : String) (semantic? : Option String) :
    Attribute :=
  ⟨"Export",
    quoted selector
      :: (semantic?.map ("ArgumentSemantic." ++ ·)).toList, none⟩

/-- The class that a declaration derives from. -/
def baseTypeAttribute (name : String) : Attribute :=
  ⟨"BaseType", ["typeof (" ++ name ++ ")"], none⟩

/-- A value may be missing. -/
def nullAllowed : Attribute :=
  ⟨"NullAllowed", [], none⟩

/-- The value that a method returns may be missing. -/
def returnNullAllowed : Attribute :=
  ⟨"NullAllowed", [], some "return"⟩

/-- The first attribute of a name and a target. -/
def findAttribute? (name : String) (target? : Option String)
    (attributes : List Attribute) : Option Attribute :=
  attributes.find? fun a => a.name == name && a.target? == target?

/-- A parameter of a member or a delegate. -/
structure BoundParameter where
  name : String
  type : String
  attributes : List Attribute := []
deriving DecidableEq, Repr

/-- The argument may be missing. -/
def BoundParameter.nullable (p : BoundParameter) : Bool :=
  (findAttribute? "NullAllowed" none p.attributes).isSome

/-- Reading or writing a property. -/
inductive AccessorKind
  | get
  | set
deriving DecidableEq, Repr

/-- The keyword of an accessor. -/
def AccessorKind.label : AccessorKind → String
  | get => "get"
  | set => "set"

/-- The attribute by which a property names the selector of an accessor. -/
def AccessorKind.attributeKey : AccessorKind → String
  | get => "getter"
  | set => "setter"

/-- An accessor of a property. -/
structure Accessor where
  kind : AccessorKind
  attributes : List Attribute := []
deriving DecidableEq, Repr

/-- What a member is; a `value` belongs to an enumeration. -/
inductive MemberKind
  | property
  | method
  | constructor
  | field
  | function
  | value
deriving DecidableEq, Repr

/-- The name of a kind of members. -/
def MemberKind.label : MemberKind → String
  | property => "property"
  | method => "method"
  | constructor => "constructor"
  | field => "field"
  | function => "function"
  | value => "value"

/-- A member of a declaration.  The type is that of the value or of what
is returned. -/
structure Member where
  kind : MemberKind
  name : String
  type : String
  attributes : List Attribute := []
  parameters : List BoundParameter := []
  accessors : List Accessor := []
  value? : Option String := none
  isUnsafe : Bool := false
  comment? : Option String := none
deriving DecidableEq, Repr

/-- The text without the quotation marks at its ends. -/
def unquoted (s : String) : String :=
  let inner := s.toList.dropWhile (· = '"')
  String.ofList ((inner.reverse.dropWhile (· = '"')).reverse)

/-- The selector that the member stands for. -/
def Member.exportSelector? (m : Member) : Option String :=
  (findAttribute? "Export" none m.attributes).bind fun a =>
    a.args.head?.map unquoted

/-- The first accessor of a kind. -/
def Member.accessor? (m : Member) (kind : AccessorKind) :
    Option Accessor :=
  m.accessors.find? (·.kind == kind)

/-- What a declaration is; `functions` and `constants` gather those of a
whole header. -/
inductive DeclarationKind
  | interface
  | protocol
  | category
  | enum
  | struct
  | functions
  | constants
  | delegate
deriving DecidableEq, Repr

/-- The name of a kind of declarations. -/
def DeclarationKind.label : DeclarationKind → String
  | interface => "interface"
  | protocol => "protocol"
  | category => "category"
  | enum => "enum"
  | struct => "struct"
  | functions => "functions"
  | constants => "constants"
  | delegate => "delegate"

/-- A declaration. -/
structure Declaration where
  kind : DeclarationKind
  name : String
  attributes : List Attribute := []
  bases : List String := []
  members : List Member := []
  backing? : Option String := none
  returnType? : Option String := none
  parameters : List BoundParameter := []
  comment? : Option String := none
deriving DecidableEq, Repr

/-- The declaration has an attribute without a target. -/
def Declaration.hasAttribute (d : Declaration) (name : String) : Bool :=
  (findAttribute? name none d.attributes).isSome

/-- The first member of a name and, if it is given, a kind. -/
def Declaration.member? (d : Declaration) (name : String)
    (kind? : Option MemberKind) : Option Member :=
  d.members.find? fun m => m.name == name && kind?.all (m.kind == ·)

end HeaderBinding
