/-
The declarations of a header one by one, as they are read.

* `Item`: a declaration or a remark;
* `Header.ofItems`: the header with the given items, each kind in order;
* `typedefItems`: what a type definition declares;
* `structItems`: what a structure declares outside a type definition.
-/
import HeaderBinding.Header.Enumeration
import HeaderBinding.Header.Record
import HeaderBinding.Header.Callable

namespace HeaderBinding

/-- A declaration of a header, or a remark on one that could not be
read. -/
inductive Item
  | interface (i : Interface)
  | proto (p : Protocol)
  | enumeration (e : EnumDef)
  | structure_ (s : StructDef)
  | typeAlias (a : Alias)
  | function (f : Function)
  | forwardClass (name : String)
  | forwardProtocol (name : String)
  | remark (d : Diagnostic)
deriving DecidableEq, Repr

namespace Item

/-- The interface that an item declares. -/
def interface? : Item → Option Interface
  | interface i => some i
  | _ => none

/-- The protocol that an item declares. -/
def proto? : Item → Option Protocol
  | proto p => some p
  | _ => none

/-- The enumeration that an item declares. -/
def enumeration? : Item → Option EnumDef
  | enumeration e => some e
  | _ => none

/-- The structure that an item declares. -/
def structure? : Item → Option StructDef
  | structure_ s => some s
  | _ => none

/-- The alias that an item declares. -/
def typeAlias? : Item → Option Alias
  | typeAlias a => some a
  | _ => none

/-- The function that an item declares. -/
def function? : Item → Option Function
  | function f => some f
  | _ => none

/-- The class that an item announces. -/
def forwardClass? : Item → Option String
  | forwardClass n => some n
  | _ => none

/-- The protocol that an item announces. -/
def forwardProtocol? : Item → Option String
  | forwardProtocol n => some n
  | _ => none

/-- The remark that an item is. -/
def remark? : Item → Option Diagnostic
  | remark d => some d
  | _ => none

end Item

/-- The header of a file with the given items. -/
def Header.ofItems (file : String) (items : List Item) : Header where
  file
  interfaces := items.filterMap Item.interface?
  protocols := items.filterMap Item.proto?
  enums := items.filterMap Item.enumeration?
  structs := items.filterMap Item.structure?
  aliases := items.filterMap Item.typeAlias?
  functions := items.filterMap Item.function?
  forward := {
    classes := items.filterMap Item.forwardClass?
    protocols := items.filterMap Item.forwardProtocol? }
  diagnostics := items.filterMap Item.remark?

/-! ### Structures -/

/-- What was read of a structure as items: the structures inside it, and
those that `own` makes of it. -/
def RecordReading.reading {σ : Type} (r : RecordReading StructDef)
    (own : StructDef → Production (List Item)) (s : σ) :
    Reading σ Item :=
  let inner := r.nested.map Item.structure_
  match r.result with
  | .error f => ⟨inner, s, r.rest, some f⟩
  | .ok d =>
    let q := Production.reading (own d) s r.rest
    { q with items := inner ++ q.items }

/-- A structure outside a type definition; one without a name and fields
does not count. -/
def structItems {σ : Type} (s : σ) (ts : List Token) : Reading σ Item :=
  (readStruct ts).reading (fun d => do
    let _ ← accept .semicolon
    return if d.name ≠ "" ∨ d.fields ≠ [] then [.structure_ d] else []) s

/-! ### Type definitions -/

/-- The number of tokens looked at for the mark of a block or a function
pointer. -/
def callableWindow : Nat := 20

/-- The mark of a block or a function pointer that a type definition
declares: a caret, or a star behind a parenthesis. -/
def callableMark : List Token → Option String
  | [] => none
  | t :: ts =>
    if t.kind = .caret then some "^"
    else if t.kind = .semicolon then none
    else if t.kind = .openParen ∧ headIs .asterisk ts then some "*"
    else callableMark ts

/-- What follows the nullability annotations at the start. -/
def skipAnnotations : List Token → List Token
  | [] => []
  | t :: ts =>
    if t.kind = .identifier ∧ nullabilityWords.contains t.value then
      skipAnnotations ts
    else t :: ts

/-- A parenthesis opens, and the mark is the text behind it. -/
def opensCallable (mark : String) (ts : List Token) : Bool :=
  headIs .openParen ts && (tokenAt 1 ts).value == mark

/-- The definition of a name for a block or a function pointer. -/
def callableAlias (mark : String) : Production Alias := do
  let result ← scan (piecesUntil (opensCallable mark))
  let _ ← expect .openParen .callableOpen
  skip step
  skip skipAnnotations
  let name ← identifierOrEmpty
  let _ ← expect .closeParen .callableNameClose
  let _ ← expect .openParen .callableParametersOpen
  let parameters ← scan parameterText
  skip skipStatement
  return ⟨name,
    piecesText result ++ " (" ++ mark ++ ")(" ++ parameters ++ ")"⟩

/-- The definition of a plain name for a type.  Nothing comes of a
statement that ends in no name. -/
def plainAlias : Production (List Item) := do
  let pieces ← scan (piecesUntil (headIs .semicolon))
  let _ ← accept .semicolon
  match pieces.getLast? with
  | some p =>
    if 2 ≤ pieces.length ∧ p.kind? = some .identifier then
      return [.typeAlias ⟨p.text, piecesText pieces.dropLast⟩]
    else return []
  | none => return []

/-- The definition of a name for an enumeration; the name behind it
replaces its own. -/
def enumAlias : Production (List Item) := do
  skip step
  let e ← enumBody
  match ← identifier? with
  | none => return [.enumeration e]
  | some name =>
    let _ ← accept .semicolon
    return [.enumeration { e with name? := some name }]

/-- An enumeration that the next word, a macro, declares. -/
def enumMacroItem : Production (List Item) := do
  let word := (← advance).value
  let e ← enumMacroBody word
  let _ ← accept .semicolon
  return [.enumeration e]

/-- The name behind the body of a structure replaces its own. -/
def structAlias (d : StructDef) : Production (List Item) := do
  let name ← identifier?
  skip skipStatement
  return [.structure_ { d with name := name.getD d.name }]

/-- What a type definition declares, from its keyword on. -/
def typedefItems {σ : Type} (s : σ) (ts : List Token) :
    Reading σ Item :=
  let body := step ts
  if headIsWord enumMacros body then enumMacroItem.reading s body
  else if headIs .kwEnum body then enumAlias.reading s body
  else if headIs .kwStruct body && definesInPlace body then
    (readStruct body).reading structAlias s
  else
    match callableMark (body.take callableWindow) with
    | some mark =>
      Production.reading (do return [.typeAlias (← callableAlias mark)])
        s body
    | none => plainAlias.reading s body

end HeaderBinding
