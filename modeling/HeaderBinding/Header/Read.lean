/-
Reading a whole header.

* `readItem`: one declaration outside classes and protocols;
* `readTokens`: the header of a row of tokens; what cannot be read leaves
  a remark, and reading goes on behind it;
* `readHeader`: the header of a text.
-/
import HeaderBinding.Header.Container
import HeaderBinding.Token.Stream

namespace HeaderBinding

/-- The classes that an announcement names, and what follows its
semicolon. -/
def forwardClasses : Nat → List Token → List String × List Token
  | _, [] => ([], [])
  | 0, t :: ts =>
    if t.kind = .identifier then
      let r := forwardClasses 0 ts
      (t.value :: r.1, r.2)
    else if t.kind = .openAngle then forwardClasses 1 ts
    else if t.kind = .comma then forwardClasses 0 ts
    else if t.kind = .semicolon then ([], ts)
    else ([], t :: ts)
  | depth + 1, t :: ts =>
    if t.kind = .endOfInput then ([], t :: ts)
    else
      forwardClasses
        (if t.kind = .openAngle then depth + 2
         else if t.kind = .closeAngle then depth else depth + 1) ts

/-- A function or a variable. -/
def functionItems (s : Bool) (ts : List Token) : Reading Bool Item :=
  Production.reading (do return (← functionBody).map .function) s ts

/-- One declaration, or a token that starts none.  The state is whether a
nonnull scope is open. -/
def readItem (inScope : Bool) (ts : List Token) : Reading Bool Item :=
  match ts with
  | [] => ⟨[], inScope, [], none⟩
  | t :: rest =>
    match t.kind with
    | .atInterface => readInterface inScope rest
    | .atProtocol => readProtocol inScope rest
    | .atClass =>
      let r := forwardClasses 0 rest
      ⟨r.1.map .forwardClass, inScope, r.2, none⟩
    | .kwTypedef => typedefItems inScope ts
    | .kwEnum =>
      Production.reading (do return [.enumeration (← enumBody)]) inScope
        rest
    | .kwStruct => structItems inScope ts
    | .kwExtern | .kwStatic | .kwInline => functionItems inScope ts
    | .identifier =>
      if enumMacros.contains t.value then enumMacroItem.reading inScope ts
      else if looksLikeFunction ts then functionItems inScope ts
      else ⟨[], inScope, rest, none⟩
    | .kwVoid =>
      if looksLikeFunction ts then functionItems inScope ts
      else ⟨[], inScope, rest, none⟩
    | kind => ⟨[], (scopeMarker? kind).getD inScope, rest, none⟩

/-- The remark that a failure leaves outside classes and protocols. -/
def Item.ofFailure (f : Failure) : Item :=
  .remark f.diagnostic

/-- The row of tokens with an end, which is put on the line of the last
token if it is missing. -/
def closeTokens (ts : List Token) : List Token :=
  match ts.getLast? with
  | none => [⟨.endOfInput, "", 1, 1⟩]
  | some t =>
    if t.kind = .endOfInput then ts
    else ts ++ [⟨.endOfInput, "", t.line, 1⟩]

/-- The items of a row of tokens that has an end. -/
def readItems (ts : List Token) : List Item :=
  (readAll [] readItem Item.ofFailure false ts).1

/-- The header of a row of tokens. -/
def readTokens (file : String) (ts : List Token) : Header :=
  Header.ofItems file (readItems (closeTokens ts))

/-- The header of a text. -/
def readHeader (rules : MacroRules) (file text : String) : Header :=
  readTokens file (tokenize rules text)

end HeaderBinding
