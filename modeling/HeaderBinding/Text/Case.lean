/-
Changing the case of letters.

* `upperChar`: the upper case of one letter, which may be several letters;
* `lowerText`: the lower case of a text; a capital sigma at the end of a
  word becomes a final sigma;
* `capitalize`, `uncapitalize`: the same for the first letter alone.
-/
import HeaderBinding.Text.Character

namespace HeaderBinding

/-- The offset of the first run that holds the code point is added to
it. -/
def shiftByRuns (runs : List (Nat × Nat × Nat × Int)) (c : Char) : Char :=
  match runs.find? fun r => inRun r.1 r.2.1 r.2.2.1 c.toNat with
  | some r => Char.ofNat (c.toNat + r.2.2.2).toNat
  | none => c

/-- The upper case of a letter; other characters are kept. -/
def upperChar (c : Char) : List Char :=
  if c.toNat < 128 then [c.toUpper]
  else
    match upperExpansions.lookup c.toNat with
    | some codes => codes.map Char.ofNat
    | none => [shiftByRuns upperRuns c]

/-- The lower case of a letter outside any word; other characters are
kept.  The dotted capital I keeps its dot as a combining mark. -/
def lowerChar (c : Char) : List Char :=
  if c.toNat < 128 then [c.toLower]
  else if c.toNat = 0x130 then ['i', Char.ofNat 0x307]
  else [shiftByRuns lowerRuns c]

/-- The nearest character that is not passed over has a case. -/
def nextIsCased (cs : List Char) : Bool :=
  match cs.dropWhile isCaseIgnorable with
  | [] => false
  | c :: _ => isCased c

/-- Lower case from left to right; `before` holds what was read already,
nearest first. -/
def lowerAfter (before : List Char) : List Char → List Char
  | [] => []
  | c :: cs =>
    (if c.toNat = 0x3a3 then
      if nextIsCased before && !nextIsCased cs then [Char.ofNat 0x3c2]
      else [Char.ofNat 0x3c3]
    else lowerChar c) ++ lowerAfter (c :: before) cs

/-- The lower case of a text. -/
def lowerText (s : String) : String :=
  String.ofList (lowerAfter [] s.toList)

/-- The text with its first letter in upper case. -/
def capitalize : List Char → List Char
  | [] => []
  | c :: cs => upperChar c ++ cs

/-- The text with its first letter in lower case. -/
def uncapitalize : List Char → List Char
  | [] => []
  | c :: cs => lowerAfter [] [c] ++ cs

end HeaderBinding
