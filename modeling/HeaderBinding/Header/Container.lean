/-
Reading classes, categories and protocols.

* `ClassPart`: what stands in the body of a class; `Interface.ofParts`
  puts the parts together;
* `readInterface`: a class or a category behind its keyword;
* `ProtocolPart`, `Protocol.ofParts`, `readProtocol`: the same for
  protocols, also where they are only announced.
-/
import HeaderBinding.Header.Item
import HeaderBinding.Header.Member
import HeaderBinding.Token.MacroRules

namespace HeaderBinding

/-- The kinds before which the body of a container stops. -/
def bodyStops : List TokenKind :=
  [.atEnd, .atInterface, .atProtocol]

/-- The scope behind a nonnull marker. -/
def scopeMarker? : TokenKind → Option Bool
  | .nonnullBegin => some true
  | .nonnullEnd => some false
  | _ => none

/-! ### Classes -/

/-- A part of the body of a class. -/
inductive ClassPart
  | property (p : Property)
  | instanceMethod (m : Method)
  | classMethod (m : Method)
  | initUnavailable
  | remark (d : Diagnostic)
deriving DecidableEq, Repr

namespace ClassPart

/-- The property that a part is. -/
def property? : ClassPart → Option Property
  | property p => some p
  | _ => none

/-- The instance method that a part is. -/
def instanceMethod? : ClassPart → Option Method
  | instanceMethod m => some m
  | _ => none

/-- The class method that a part is. -/
def classMethod? : ClassPart → Option Method
  | classMethod m => some m
  | _ => none

/-- The remark that a part is. -/
def remark? : ClassPart → Option Diagnostic
  | remark d => some d
  | _ => none

/-- What a failure leaves in the body of a class. -/
def ofFailure (f : Failure) : ClassPart :=
  remark f.diagnostic

end ClassPart

/-- The class with its body. -/
def Interface.ofParts (head : Interface) (parts : List ClassPart) :
    Interface :=
  { head with
    properties := parts.filterMap ClassPart.property?
    instanceMethods := parts.filterMap ClassPart.instanceMethod?
    classMethods := parts.filterMap ClassPart.classMethod?
    initUnavailable := parts.contains .initUnavailable }

/-- One part of the body of a class.  The state is whether a nonnull scope
is open. -/
def readClassPart (inScope : Bool) (ts : List Token) :
    Reading Bool ClassPart :=
  match ts with
  | [] => ⟨[], inScope, [], none⟩
  | t :: rest =>
    match t.kind with
    | .atProperty =>
      Production.reading
        (do return [.property (← propertyBody inScope)]) inScope rest
    | .minus =>
      Production.reading
        (do return [.instanceMethod (← methodBody inScope)]) inScope rest
    | .plus =>
      Production.reading
        (do return [.classMethod (← methodBody inScope)]) inScope rest
    | .openBrace =>
      ⟨[], inScope, skipGroup .openBrace .closeBrace 1 rest, none⟩
    | .identifier =>
      let parts :=
        if saysInitUnavailable t.value then [.initUnavailable] else []
      ⟨parts, inScope, rest, none⟩
    | kind => ⟨[], (scopeMarker? kind).getD inScope, rest, none⟩

/-- The type parameters of a class, if any, are passed over. -/
def skipTypeParameters (ts : List Token) : List Token :=
  if headIs .openAngle ts
      && anglesFollowedBy [.colon, .openParen] 0 ts then
    skipGroup .openAngle .closeAngle 1 ts.tail
  else ts

/-- The type arguments of a superclass, if any, are passed over. -/
def skipTypeArguments (ts : List Token) : List Token :=
  if headIs .openAngle ts && pointerInAngles 0 ts then
    skipGroup .openAngle .closeAngle 1 ts.tail
  else ts

/-- The name of a category in parentheses, if one opens next. -/
def categoryName : Production (Option String) := do
  if ← accept .openParen then
    let name ← identifierOrEmpty
    let _ ← expect .closeParen .categoryClose
    return some name
  else return none

/-- The name of the superclass behind a colon, if one comes next. -/
def superclassName : Production (Option String) := do
  if ← accept .colon then
    let name ← expectIdentifier .superclassName
    skip skipTypeArguments
    return some name
  else return none

/-- Protocols in angle brackets, if such a group opens next. -/
def protocolNames (due : Expectation) : Production (List String) := do
  if ← accept .openAngle then
    let names ← scan (identifierList .closeAngle)
    let _ ← expect .closeAngle due
    return names
  else return []

/-- A class or a category up to its body. -/
def interfaceHead : Production Interface := do
  let name ← expectIdentifier .interfaceName
  skip skipTypeParameters
  let category? ← categoryName
  let superclass? ← superclassName
  let protocols ← protocolNames .protocolsClose
  if ← accept .openBrace then
    skip (skipGroup .openBrace .closeBrace 1)
  return { name, category?, superclass?, protocols }

/-- The end of a container behind its body. -/
def closeContainer {σ : Type} (items : List Item) (s : σ)
    (ts : List Token) : Reading σ Item :=
  match (expect .atEnd .containerEnd).run ts with
  | (.ok _, rest) => ⟨items, s, rest, none⟩
  | (.error f, rest) => ⟨items, s, rest, some f⟩

/-- A class or a category behind its keyword.  What was read of its body
is kept also when its end is missing. -/
def readInterface (inScope : Bool) (ts : List Token) :
    Reading Bool Item :=
  match interfaceHead.run ts with
  | (.error f, rest) => ⟨[], inScope, rest, some f⟩
  | (.ok head, rest) =>
    let body := readAll bodyStops readClassPart ClassPart.ofFailure
      inScope rest
    closeContainer
      (.interface (head.ofParts body.1)
        :: (body.1.filterMap ClassPart.remark?).map .remark)
      body.2.1 body.2.2

/-! ### Protocols -/

/-- A part of the body of a protocol: a property, a method of the class or
of its instances, or an item of its own. -/
inductive ProtocolPart
  | property (p : Property)
  | instanceMethod (m : Method)
  | classMethod (m : Method)
  | item (i : Item)
deriving DecidableEq, Repr

namespace ProtocolPart

/-- The property that a part is. -/
def property? : ProtocolPart → Option Property
  | property p => some p
  | _ => none

/-- The instance method that a part is, if it is as optional as
asked. -/
def instanceMethod? (optional : Bool) : ProtocolPart → Option Method
  | instanceMethod m => if m.optional = optional then some m else none
  | _ => none

/-- The class method that a part is, if it is as optional as asked. -/
def classMethod? (optional : Bool) : ProtocolPart → Option Method
  | classMethod m => if m.optional = optional then some m else none
  | _ => none

/-- The item of its own that a part is. -/
def item? : ProtocolPart → Option Item
  | item i => some i
  | _ => none

/-- What a failure leaves in the body of a protocol. -/
def ofFailure (f : Failure) : ProtocolPart :=
  item (.remark f.diagnostic)

end ProtocolPart

/-- The protocol with its body. -/
def Protocol.ofParts (head : Protocol) (parts : List ProtocolPart) :
    Protocol :=
  { head with
    properties := parts.filterMap ProtocolPart.property?
    requiredInstance := parts.filterMap (ProtocolPart.instanceMethod? false)
    requiredClass := parts.filterMap (ProtocolPart.classMethod? false)
    optionalInstance := parts.filterMap (ProtocolPart.instanceMethod? true)
    optionalClass := parts.filterMap (ProtocolPart.classMethod? true) }

/-- The state within a protocol. -/
structure ProtocolState where
  /-- A nonnull scope is open. -/
  inScope : Bool
  /-- The members are optional. -/
  optional : Bool := false
deriving DecidableEq, Repr

/-- A part that a production reads, or the failure. -/
def partReading (p : Production ProtocolPart) (s : ProtocolState)
    (ts : List Token) : Reading ProtocolState ProtocolPart :=
  Production.reading (do return [← p]) s ts

/-- One part of the body of a protocol. -/
def readProtocolPart (s : ProtocolState) (ts : List Token) :
    Reading ProtocolState ProtocolPart :=
  match ts with
  | [] => ⟨[], s, [], none⟩
  | t :: rest =>
    match t.kind with
    | .atOptional => ⟨[], { s with optional := true }, rest, none⟩
    | .atRequired => ⟨[], { s with optional := false }, rest, none⟩
    | .atProperty =>
      partReading (do
        let p ← propertyBody s.inScope
        return .property { p with optional := s.optional }) s rest
    | .minus =>
      partReading (do
        let m ← methodBody s.inScope
        return .instanceMethod { m with optional := s.optional }) s rest
    | .plus =>
      partReading (do
        let m ← methodBody s.inScope
        return .classMethod { m with optional := s.optional }) s rest
    | .kwTypedef =>
      let r := typedefItems s ts
      ⟨r.items.map .item, r.state, r.rest, r.failure?⟩
    | kind =>
      ⟨[], { s with inScope := (scopeMarker? kind).getD s.inScope }, rest,
        none⟩

/-- The further names of an announcement, each behind a comma; there may
be commas without a name. -/
def announcedNames (behindComma : Bool) :
    List Token → List String × List Token
  | [] => ([], [])
  | t :: ts =>
    if t.kind = .comma then announcedNames true ts
    else if behindComma ∧ t.kind = .identifier then
      let r := announcedNames false ts
      (t.value :: r.1, r.2)
    else ([], t :: ts)

/-- The announcement of protocols behind the first name. -/
def forwardProtocols (name : String) (inScope : Bool)
    (ts : List Token) : Reading Bool Item :=
  let r := announcedNames false ts
  let rest := if headIs .semicolon r.2 then r.2.tail else r.2
  ⟨(name :: r.1).map .forwardProtocol, inScope, rest, none⟩

/-- A protocol behind its name. -/
def readProtocolNamed (name : String) (inScope : Bool)
    (ts : List Token) : Reading Bool Item :=
  match (protocolNames .inheritedClose).run ts with
  | (.error f, rest) => ⟨[], inScope, rest, some f⟩
  | (.ok inherited, rest) =>
    let body := readAll bodyStops readProtocolPart ProtocolPart.ofFailure
      { inScope } rest
    closeContainer
      (.proto (Protocol.ofParts { name, inherited } body.1)
        :: body.1.filterMap ProtocolPart.item?)
      body.2.1.inScope body.2.2

/-- A protocol, or an announcement of some, behind the keyword. -/
def readProtocol (inScope : Bool) (ts : List Token) :
    Reading Bool Item :=
  match (expectIdentifier .protocolName).run ts with
  | (.error f, rest) => ⟨[], inScope, rest, some f⟩
  | (.ok name, rest) =>
    if headIn [.comma, .semicolon] rest then
      forwardProtocols name inScope rest
    else readProtocolNamed name inScope rest

end HeaderBinding
