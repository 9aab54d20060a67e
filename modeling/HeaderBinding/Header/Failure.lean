/-
Why a declaration could not be read.

* `Expectation`: a mark or a name that was due at some place;
* `Failure`: the reason, with the token where reading stopped;
* `Failure.message`: its wording;
* `Failure.diagnostic`: the remark it leaves.
-/
import HeaderBinding.Header.Basic
import HeaderBinding.Token.Basic

namespace HeaderBinding

/-- What was due. -/
inductive Expectation
  | interfaceName
  | categoryClose
  | superclassName
  | protocolsClose
  | containerEnd
  | protocolName
  | inheritedClose
  | attributesClose
  | blockPropertyName
  | blockNameClose
  | propertyName
  | returnTypeClose
  | parameterTypeClose
  | enumBodyClose
  | enumMacroOpen (word : String)
  | enumMacroComma (word : String)
  | enumName
  | enumMacroClose (word : String)
  | structBodyClose
  | arraySizeClose
  | callableOpen
  | callableNameClose
  | callableParametersOpen
  | functionParametersClose
deriving DecidableEq, Repr

/-- What was due, in words. -/
def Expectation.wording : Expectation → String
  | interfaceName => "Expected interface name"
  | categoryClose => "Expected ')' after category name"
  | superclassName => "Expected superclass name"
  | protocolsClose => "Expected '>' after protocol list"
  | containerEnd => "Expected '@end'"
  | protocolName => "Expected protocol name"
  | inheritedClose => "Expected '>' after inherited protocols"
  | attributesClose => "Expected ')' after property attributes"
  | blockPropertyName => "Expected block property name"
  | blockNameClose => "Expected ')' after block name"
  | propertyName => "Expected property name"
  | returnTypeClose => "Expected ')' after return type"
  | parameterTypeClose => "Expected ')' after parameter type"
  | enumBodyClose => "Expected '\x7d' after enum values"
  | enumMacroOpen word => "Expected '(' after " ++ word
  | enumMacroComma word => "Expected ',' in " ++ word
  | enumName => "Expected enum name"
  | enumMacroClose word => "Expected ')' closing " ++ word
  | structBodyClose => "Expected '\x7d' after struct fields"
  | arraySizeClose => "Expected ']' after array size"
  | callableOpen => "Expected '(' in callable typedef"
  | callableNameClose => "Expected ')' after typedef name"
  | callableParametersOpen => "Expected '(' before typedef parameters"
  | functionParametersClose => "Expected ')' after function parameters"

/-- The reason why something could not be read. -/
inductive Failure
  /-- Something else stands where the expected thing was due. -/
  | missing (due : Expectation) (found : Token)
  /-- A method has no selector. -/
  | noSelector (found : Token)
  /-- A function declaration runs into the token. -/
  | strayToken (found : Token)
deriving DecidableEq, Repr

/-- Where reading stopped. -/
def Failure.found : Failure → Token
  | missing _ t => t
  | noSelector t => t
  | strayToken t => t

/-- The token as it is named in a message. -/
def Token.shown (t : Token) : String :=
  if t.kind = .endOfInput then "end of input" else "'" ++ t.value ++ "'"

/-- The wording of a failure. -/
def Failure.message : Failure → String
  | missing due t => due.wording ++ ", got " ++ t.shown
  | noSelector _ => "Expected method selector"
  | strayToken _ => "Unexpected token in declaration"

/-- The remark that a failure leaves, at the token where reading
stopped. -/
def Failure.diagnostic (f : Failure) : Diagnostic :=
  ⟨f.message, f.found.line, f.found.column⟩

end HeaderBinding
