/-
Delegates, for the names that stand for block types.

* `splitBlockSignature`: what a block returns, and its parameters;
* `splitBlockParameter?`: the type and the name of a parameter;
* `bindDelegate`: the declaration for a name.
-/
import HeaderBinding.Binding.Slot
import HeaderBinding.Header.Callable

namespace HeaderBinding

/-- The mark of a block type. -/
def blockMark : List Char := ['(', '^', ')']

/-- The text without the parentheses around it. -/
def dropParens (cs : List Char) : List Char :=
  match cs with
  | '(' :: rest => if rest.getLast? = some ')' then rest.dropLast else cs
  | _ => cs

/-- What a block returns, and its parameters. -/
def splitBlockSignature (cs : List Char) :
    List Char × List (List Char) :=
  let sides := (cutAt? blockMark cs).getD (cs, [])
  let params :=
    topLevelParts ['(', '<'] [')', '>'] (dropParens (trim sides.2))
  (trim sides.1, if params = ["void".toList] then [] else params)

/-- A letter or underscore that a name of C may start with. -/
def startsPlainName (c : Char) : Bool :=
  c == '_' || c.isAlpha

/-- The type and the name of a parameter of a block: the name is the last
word, if a blank or a star stands before it and it is no word of a
type. -/
def splitBlockParameter? (cs : List Char) :
    Option (List Char × List Char) :=
  let name := (cs.reverse.takeWhile isWordChar).reverse
  match cs.reverse.dropWhile isWordChar with
  | [] => none
  | mark :: before =>
    let type := trim (mark :: before).reverse
    if name.head?.any startsPlainName && isPointerMark mark
        && !before.contains '\n' && !type.isEmpty
        && !typeWordsOfC.contains (String.ofList name) then
      some (type, name)
    else none

/-- A parameter of a delegate. -/
def bindBlockParameter (ctx : TypeContext) (cs : List Char)
    (index : Nat) : BoundParameter :=
  let split := (splitBlockParameter? cs).getD (cs, [])
  ⟨parameterName (String.ofList split.2) index,
    (bindType ctx none (String.ofList split.1)).1, []⟩

/-- The name with the mark of the block, for the first mark in the
text. -/
def nameBlock (name : String) (cs : List Char) : String :=
  match cutAt? blockMark cs with
  | some sides =>
    String.ofList sides.1 ++ "(^" ++ name ++ ")" ++ String.ofList sides.2
  | none => String.ofList cs

/-- The declaration for a name of a block type. -/
def bindDelegate (ctx : TypeContext) (a : Alias) : Declaration :=
  let split := splitBlockSignature a.target.toList
  let returned :=
    if split.1.isEmpty then "void" else String.ofList split.1
  { kind := .delegate
    name := delegateName a.name
    returnType? := some (bindType ctx none returned).1
    parameters := split.2.mapIdx fun index cs =>
      bindBlockParameter ctx cs index
    comment? :=
      some ("typedef " ++ nameBlock a.name a.target.toList ++ ";") }

end HeaderBinding
