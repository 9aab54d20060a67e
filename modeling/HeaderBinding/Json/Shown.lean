/-
JSON values as messages and names show them.

* `Json.isEmpty`: the value stands for nothing;
* `Json.shown`: the value in words; texts inside others are quoted, and
  halves of surrogate pairs are escaped.
-/
import HeaderBinding.Json.Basic
import HeaderBinding.Text.Quoted

namespace HeaderBinding

/-- Null, false, zero, and empty texts, arrays and objects. -/
def Json.isEmpty : Json → Bool
  | .null => true
  | .bool b => !b
  | .int n => n = 0
  | .real _ => false
  | .str s => s.isEmpty
  | .arr items => items.isEmpty
  | .obj fields => fields.isEmpty

mutual

/-- A value that stands inside another. -/
def Json.shownInside : Json → String
  | .null => "None"
  | .bool b => if b then "True" else "False"
  | .int n => toString n
  | .real text => text
  | .str s => quotedText s
  | .arr items => "[" ++ shownItems items ++ "]"
  | .obj fields => "\x7b" ++ shownFields fields ++ "\x7d"

/-- The items of an array in words. -/
def shownItems : List Json → String
  | [] => ""
  | [v] => v.shownInside
  | v :: vs => v.shownInside ++ ", " ++ shownItems vs

/-- The fields of an object in words. -/
def shownFields : List (LooseText × Json) → String
  | [] => ""
  | [(k, v)] => quotedText k ++ ": " ++ v.shownInside
  | (k, v) :: fs =>
    quotedText k ++ ": " ++ v.shownInside ++ ", " ++ shownFields fs

end

/-- A value in words; a text stands without quotation marks. -/
def Json.shown : Json → String
  | .str s => s.escaped
  | v => v.shownInside

end HeaderBinding
