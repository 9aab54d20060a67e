/-
Texts in quotation marks, as messages show them.

* `quotedText`: single quotes, or double quotes around a text that holds
  only single ones; backslashes, the quotes themselves and what has no
  printed form are escaped.
-/
import HeaderBinding.Text.Character
import HeaderBinding.Text.Loose

namespace HeaderBinding

/-- The escape of a character by its number, as short as it can be. -/
def numericEscape (n : Nat) : List Char :=
  if n < 0x100 then '\\' :: 'x' :: fixedHex 2 n
  else if n < 0x10000 then escapeUnit n
  else '\\' :: 'U' :: fixedHex 8 n

/-- A character inside the given quotation marks. -/
def escapeInQuotes (quote c : Char) : List Char :=
  if c = quote ∨ c = '\\' then ['\\', c]
  else if c = '\t' then ['\\', 't']
  else if c = '\n' then ['\\', 'n']
  else if c = '\r' then ['\\', 'r']
  else if isPrintable c then [c]
  else numericEscape c.toNat

/-- A unit inside the given quotation marks. -/
def TextUnit.escapedIn (quote : Char) : TextUnit → List Char
  | char c => escapeInQuotes quote c
  | half offset => (half offset).escaped

/-- The text in quotation marks. -/
def quotedText (t : LooseText) : String :=
  let quote :=
    if t.units.contains (.char '\'') && !t.units.contains (.char '"') then
      '"'
    else '\''
  String.ofList
    (quote :: t.units.flatMap (TextUnit.escapedIn quote) ++ [quote])

end HeaderBinding
