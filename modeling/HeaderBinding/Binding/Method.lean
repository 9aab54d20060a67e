/-
Methods and constructors.

* `Method.describe`: a method as a header declares it;
* `MemberSite`: where a member stands, in a class or in a part of a
  protocol;
* `bindConstructor`, `bindMethod`: the member for a method.
-/
import HeaderBinding.Binding.Slot

namespace HeaderBinding

/-- A method as a header declares it. -/
def Method.describe (m : Method) (onClass : Bool) : String :=
  let labels := m.labels
  let body :=
    if !m.parameters.isEmpty && labels.length == m.parameters.length then
      " ".intercalate (List.zipWith (fun label p =>
        label ++ ":(" ++ p.type ++ ")" ++ p.name) labels m.parameters)
    else m.selector
  (if onClass then "+" else "-") ++ " (" ++ m.returnType ++ ")" ++ body
    ++ ";"

/-- The method is named like one that sets an object up: `init`, alone or
before a capital or a colon. -/
def Method.isInitializer (m : Method) : Bool :=
  match "init".toList.isPrefixOf? m.selector.toList with
  | some [] => true
  | some (c :: _) => c == ':' || ('A' ≤ c && c ≤ 'Z')
  | none => false

/-- The method returns an object of its class, or may do so. -/
def Method.returnsSelf (m : Method) (owner : String) : Bool :=
  ["instancetype", "id", owner].contains (baseTypeName m.returnType)

/-- The words that tell that a block is called back. -/
def asyncHints : List String :=
  ["completion", "handler", "callback", "reply"]

/-- The method returns nothing and calls a block back as its last
argument.  A setter keeps the block instead. -/
def Method.wantsAsync (m : Method) (ctx : TypeContext) : Bool :=
  match m.parameters.getLast? with
  | none => false
  | some last =>
    baseTypeName m.returnType == "void"
      && !m.returnType.toList.contains '*'
      && !"set".toList.isPrefixOf m.selector.toList
      && (isBlockText last.type.toList
        || ctx.blocks.contains (baseTypeName last.type))
      && asyncHints.any fun hint =>
        occursIn hint (lowerText (m.selector ++ " " ++ last.name))

/-- Where a member stands: in a class, or among the members of a protocol
that must or may be there. -/
inductive MemberSite
  | ofClass (owner : String)
  | required
  | optional
deriving DecidableEq, Repr

/-- The class that the member stands in. -/
def MemberSite.owner? : MemberSite → Option String
  | ofClass owner => some owner
  | _ => none

/-- What stands before the description of the member. -/
def MemberSite.remark : MemberSite → String
  | ofClass _ => ""
  | required => "@required "
  | optional => "@optional "

/-- The attribute of members that stand on the class itself. -/
def staticAttribute (onClass : Bool) : List Attribute :=
  if onClass then [⟨"Static", [], none⟩] else []

/-- The attribute of members that must be there. -/
def MemberSite.abstractAttribute (site : MemberSite) : List Attribute :=
  if site = .required then [⟨"Abstract", [], none⟩] else []

/-- The constructor for a method that sets an object up. -/
def bindConstructor (ctx : TypeContext) (owner : String) (m : Method) :
    Member :=
  { kind := .constructor
    name := "Constructor"
    type := "NativeHandle"
    attributes :=
      (if m.designated then [⟨"DesignatedInitializer", [], none⟩] else [])
        ++ [exportAttribute m.selector none]
    parameters := (bindParameters ctx (some owner) m).1
    comment? := some (m.describe false) }

/-- What decides the name of a method. -/
def Method.roleAt (m : Method) (site : MemberSite) (onClass : Bool)
    (returnType : String) : MethodRole :=
  { inProtocol := site.owner?.isNone
    returnsValue := returnType ≠ "void"
    parameterCount := m.parameters.length
    isInitializer := m.isInitializer
    isFactory := onClass && site.owner?.any m.returnsSelf }

/-- The member for a method. -/
def bindMethod (ctx : TypeContext) (site : MemberSite) (onClass : Bool)
    (m : Method) : Member :=
  let type := bindType ctx site.owner? m.returnType
  let parameters := bindParameters ctx site.owner? m
  { kind := .method
    name := methodName m.selector (m.roleAt site onClass type.1)
    type := type.1
    attributes :=
      staticAttribute onClass ++ site.abstractAttribute
        ++ (if site.owner?.isSome && m.wantsAsync ctx then
          [⟨"Async", [], none⟩] else [])
        ++ (if type.1 ≠ "void" ∧ isNullableSlot ctx m.returnType
            m.returnNullable m.inNonnullScope then
          [returnNullAllowed] else [])
        ++ [exportAttribute m.selector none]
    parameters := parameters.1
    isUnsafe := type.2 || parameters.2
    comment? := some (site.remark ++ m.describe onClass) }

end HeaderBinding
