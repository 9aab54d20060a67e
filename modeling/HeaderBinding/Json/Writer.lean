/-
Writing JSON.  The text is ASCII: a character outside the printed ASCII
range is escaped, in two halves if it needs more than sixteen bits; so is
a half that stands alone.

* `Json.compact`: no blanks at all;
* `Json.pretty`: one item or field a line, two spaces a level, and a line
  feed at the end.
-/
import HeaderBinding.Json.Basic

namespace HeaderBinding

/-- A character as it stands inside a string. -/
def escapeJsonChar (c : Char) : List Char :=
  if c = '"' then ['\\', '"']
  else if c = '\\' then ['\\', '\\']
  else if c = '\n' then ['\\', 'n']
  else if c = '\r' then ['\\', 'r']
  else if c = '\t' then ['\\', 't']
  else if c.toNat = 8 then ['\\', 'b']
  else if c.toNat = 12 then ['\\', 'f']
  else if 0x20 ≤ c.toNat ∧ c.toNat < 0x7f then [c]
  else if c.toNat < 0x10000 then escapeUnit c.toNat
  else
    let n := c.toNat - 0x10000
    escapeUnit (0xd800 + n / 0x400) ++ escapeUnit (0xdc00 + n % 0x400)

/-- A unit as it stands inside a string. -/
def escapeJsonUnit : TextUnit → List Char
  | .char c => escapeJsonChar c
  | .half offset => escapeUnit (0xd800 + offset)

/-- A string with its quotes. -/
def writeString (t : LooseText) : String :=
  "\"" ++ String.ofList (t.units.flatMap escapeJsonUnit) ++ "\""

/-- A line break and the indentation of a level. -/
def breakLine (level : Nat) : String :=
  "\n" ++ String.ofList (List.replicate (2 * level) ' ')

mutual

/-- A value without any blanks. -/
def Json.compact : Json → String
  | .null => "null"
  | .bool b => if b then "true" else "false"
  | .int n => toString n
  | .real text => text
  | .str s => writeString s
  | .arr items => "[" ++ compactItems items ++ "]"
  | .obj fields => "\x7b" ++ compactFields fields ++ "\x7d"

/-- The items of an array, with commas between them. -/
def compactItems : List Json → String
  | [] => ""
  | [v] => v.compact
  | v :: vs => v.compact ++ "," ++ compactItems vs

/-- The fields of an object, with commas between them. -/
def compactFields : List (LooseText × Json) → String
  | [] => ""
  | [(k, v)] => writeString k ++ ":" ++ v.compact
  | (k, v) :: fs =>
    writeString k ++ ":" ++ v.compact ++ "," ++ compactFields fs

end

mutual

/-- A value spread over lines, at an indentation level. -/
def Json.spread (level : Nat) : Json → String
  | .null => "null"
  | .bool b => if b then "true" else "false"
  | .int n => toString n
  | .real text => text
  | .str s => writeString s
  | .arr [] => "[]"
  | .arr items =>
    "[" ++ spreadItems (level + 1) items ++ breakLine level ++ "]"
  | .obj [] => "\x7b\x7d"
  | .obj fields =>
    "\x7b" ++ spreadFields (level + 1) fields ++ breakLine level ++ "\x7d"

/-- The items of an array, each on its own line. -/
def spreadItems (level : Nat) : List Json → String
  | [] => ""
  | [v] => breakLine level ++ v.spread level
  | v :: vs =>
    breakLine level ++ v.spread level ++ "," ++ spreadItems level vs

/-- The fields of an object, each on its own line. -/
def spreadFields (level : Nat) : List (LooseText × Json) → String
  | [] => ""
  | [(k, v)] => breakLine level ++ writeString k ++ ": " ++ v.spread level
  | (k, v) :: fs =>
    breakLine level ++ writeString k ++ ": " ++ v.spread level ++ ","
      ++ spreadFields level fs

end

/-- A value spread over lines, with a line feed at the end. -/
def Json.pretty (v : Json) : String :=
  v.spread 0 ++ "\n"

end HeaderBinding
