/-
Reading JSON.  Beside the standard's values, `NaN` and the infinities are
read as numbers.  Of several fields with one name the last value counts,
in the place of the first.

* `JsonFault`: what is wrong with a text, and `JsonFault.message` its
  wording, which places the fault by line, column and character;
* `readJson`: the value of a whole text, or the first fault.
-/
import HeaderBinding.Json.Basic

namespace HeaderBinding

/-- What can be wrong at a place of a JSON text. -/
inductive JsonFaultKind
  | byteOrderMark
  | expectedValue
  | expectedName
  | expectedColon
  | expectedComma
  | extraData
  | unterminatedString
  | controlCharacter
  | badEscape
  | badUnicodeEscape
  /-- A whole number with more than 4300 digits. -/
  | hugeNumber
deriving DecidableEq, Repr

/-- The wording of a fault, without its place. -/
def JsonFaultKind.wording : JsonFaultKind → String
  | byteOrderMark => "Unexpected UTF-8 BOM (decode using utf-8-sig)"
  | expectedValue => "Expecting value"
  | expectedName => "Expecting property name enclosed in double quotes"
  | expectedColon => "Expecting ':' delimiter"
  | expectedComma => "Expecting ',' delimiter"
  | extraData => "Extra data"
  | unterminatedString => "Unterminated string starting at"
  | controlCharacter => "Invalid control character at"
  | badEscape => "Invalid \\escape"
  | badUnicodeEscape => "Invalid \\uXXXX escape"
  | hugeNumber => "Number too long"

/-- A fault, with the text that was left at its place. -/
structure JsonFault where
  kind : JsonFaultKind
  left : List Char
deriving DecidableEq, Repr

/-- The wording of a fault of the text `whole`: its kind and its place. -/
def JsonFault.message (f : JsonFault) (whole : List Char) : String :=
  let pos := whole.length - f.left.length
  let before := whole.take pos
  let line := before.count '\n' + 1
  let column := (before.reverse.takeWhile (· ≠ '\n')).length + 1
  s!"{f.kind.wording}: line {line} column {column} (char {pos})"

/-- What was read, or a fault. -/
abbrev JsonResult := Except JsonFault

/-- White space between the parts of a JSON text. -/
def isJsonBlank (c : Char) : Bool :=
  c == ' ' || c == '\t' || c == '\n' || c == '\r'

/-- What follows the white space at the start. -/
def skipJsonBlanks (cs : List Char) : List Char :=
  cs.dropWhile isJsonBlank

/-! ### Strings -/

/-- The value of a hexadecimal digit. -/
def hexValue? (c : Char) : Option Nat :=
  if c.isDigit then some (c.toNat - 48)
  else if 'a' ≤ c ∧ c ≤ 'f' then some (c.toNat - 87)
  else if 'A' ≤ c ∧ c ≤ 'F' then some (c.toNat - 55)
  else none

/-- Four hexadecimal digits after `\u`, where more text must follow. -/
def readUnit? : List Char → Option (Nat × List Char)
  | a :: b :: c :: d :: e :: rest => do
    let a ← hexValue? a
    let b ← hexValue? b
    let c ← hexValue? c
    let d ← hexValue? d
    some (((a * 16 + b) * 16 + c) * 16 + d, e :: rest)
  | _ => none

/-- A sixteen-bit unit by itself. -/
def loneUnit (n : Nat) : TextUnit :=
  if _h : 0xd800 ≤ n ∧ n < 0xe000 then .half ⟨n - 0xd800, by omega⟩
  else .char (Char.ofNat n)

/-- The character of a simple escape. -/
def simpleEscape? (c : Char) : Option Char :=
  match c with
  | '"' => some '"'
  | '\\' => some '\\'
  | '/' => some '/'
  | 'b' => some (Char.ofNat 8)
  | 'f' => some (Char.ofNat 12)
  | 'n' => some '\n'
  | 'r' => some '\r'
  | 't' => some '\t'
  | _ => none

/-- What follows `\u`, where `here` is the text from the `u` on: a unit, or
two units that make up one character.  Half of such a pair is read by
itself if the other half is missing. -/
def readUnicodeEscape (here cs : List Char) :
    JsonResult (TextUnit × List Char) :=
  match readUnit? cs with
  | none => .error ⟨.badUnicodeEscape, here⟩
  | some (n, rest) =>
    match rest with
    | '\\' :: 'u' :: low =>
      if 0xd800 ≤ n ∧ n < 0xdc00 ∧ 5 ≤ low.length then
        match readUnit? low with
        | none => .error ⟨.badUnicodeEscape, 'u' :: low⟩
        | some (m, after) =>
          if 0xdc00 ≤ m ∧ m < 0xe000 then
            .ok (.char (Char.ofNat
              (0x10000 + (n - 0xd800) * 0x400 + (m - 0xdc00))), after)
          else .ok (loneUnit n, rest)
      else .ok (loneUnit n, rest)
    | _ => .ok (loneUnit n, rest)

/-- A string after its opening quote; `start` is the text from that quote
on.  The fuel bounds the number of characters. -/
def readStringBody (start : List Char) :
    Nat → List Char → JsonResult (List TextUnit × List Char)
  | 0, _ => .error ⟨.unterminatedString, start⟩
  | _ + 1, [] => .error ⟨.unterminatedString, start⟩
  | fuel + 1, c :: cs =>
    if c = '"' then .ok ([], cs)
    else if c = '\\' then
      match cs with
      | [] => .error ⟨.unterminatedString, start⟩
      | 'u' :: rest => do
        let (unit, after) ← readUnicodeEscape ('u' :: rest) rest
        let (tail, after) ← readStringBody start fuel after
        .ok (unit :: tail, after)
      | d :: rest =>
        match simpleEscape? d with
        | none => .error ⟨.badEscape, c :: cs⟩
        | some ch => do
          let (tail, after) ← readStringBody start fuel rest
          .ok (.char ch :: tail, after)
    else if c.toNat < 0x20 then .error ⟨.controlCharacter, c :: cs⟩
    else do
      let (tail, after) ← readStringBody start fuel cs
      .ok (.char c :: tail, after)

/-- A string whose opening quote stands before `cs`. -/
def readJsonString (cs : List Char) :
    JsonResult (LooseText × List Char) := do
  let (body, rest) ← readStringBody ('"' :: cs) (cs.length + 1) cs
  .ok (⟨body⟩, rest)

/-! ### Numbers -/

/-- The number that decimal digits stand for. -/
def decimalValue (digits : List Char) : Nat :=
  digits.foldl (fun n c => 10 * n + (c.toNat - 48)) 0

/-- The digits after a point, with the point, if a digit follows it. -/
def readFraction (cs : List Char) : List Char × List Char :=
  match cs with
  | '.' :: d :: rest =>
    if d.isDigit then
      ('.' :: (d :: rest).takeWhile Char.isDigit,
        (d :: rest).dropWhile Char.isDigit)
    else ([], cs)
  | _ => ([], cs)

/-- An exponent, if a digit belongs to it. -/
def readExponent (cs : List Char) : List Char × List Char :=
  match cs with
  | e :: rest =>
    if e = 'e' ∨ e = 'E' then
      let sign := match rest with
        | s :: _ => if s = '+' ∨ s = '-' then [s] else []
        | [] => []
      let digits := (rest.drop sign.length).takeWhile Char.isDigit
      if digits.isEmpty then ([], cs)
      else (e :: (sign ++ digits),
        (rest.drop sign.length).dropWhile Char.isDigit)
    else ([], cs)
  | [] => ([], cs)

/-- The digits of a whole number: a zero stands alone. -/
def readWhole (cs : List Char) : List Char × List Char :=
  match cs with
  | '0' :: rest => (['0'], rest)
  | _ => (cs.takeWhile Char.isDigit, cs.dropWhile Char.isDigit)

/-- A number. -/
def readNumberValue (start : List Char) : JsonResult (Json × List Char) :=
  let sign := if start.head? = some '-' then ['-'] else []
  let whole := readWhole (start.drop sign.length)
  if whole.1.isEmpty then .error ⟨.expectedValue, start⟩
  else
    let fraction := readFraction whole.2
    let exponent := readExponent fraction.2
    if fraction.1.isEmpty && exponent.1.isEmpty then
      if 4300 < whole.1.length then .error ⟨.hugeNumber, start⟩
      else
        let n : Int := decimalValue whole.1
        .ok (.int (if sign.isEmpty then n else -n), whole.2)
    else
      .ok (.real (String.ofList
        (sign ++ whole.1 ++ fraction.1 ++ exponent.1)), exponent.2)

/-! ### Values -/

/-- The words that stand for values. -/
def jsonWords : List (String × Json) :=
  [("null", .null), ("true", .bool true), ("false", .bool false),
    ("NaN", .real "NaN"), ("Infinity", .real "Infinity"),
    ("-Infinity", .real "-Infinity")]

/-- A word or a number. -/
def readAtom (cs : List Char) : JsonResult (Json × List Char) :=
  match jsonWords.find? fun w => w.1.toList.isPrefixOf cs with
  | some w => .ok (w.2, cs.drop w.1.length)
  | none => readNumberValue cs

mutual

/-- A value at the start of the text.  The fuel bounds the depth and the
width together. -/
def readJsonValue : Nat → List Char → JsonResult (Json × List Char)
  | 0, cs => .error ⟨.expectedValue, cs⟩
  | fuel + 1, cs =>
    match cs with
    | '"' :: rest => do
      let (s, after) ← readJsonString rest
      .ok (.str s, after)
    | '{' :: rest =>
      match skipJsonBlanks rest with
      | '}' :: after => .ok (.obj [], after)
      | inner => do
        let (fields, after) ← readJsonFields fuel [] inner
        .ok (.obj fields, after)
    | '[' :: rest =>
      match skipJsonBlanks rest with
      | ']' :: after => .ok (.arr [], after)
      | inner => do
        let (items, after) ← readJsonItems fuel inner
        .ok (.arr items, after)
    | _ => readAtom cs

/-- The fields of an object from a name on; `before` holds those read. -/
def readJsonFields : Nat → List (LooseText × Json) → List Char →
    JsonResult (List (LooseText × Json) × List Char)
  | 0, _, cs => .error ⟨.expectedValue, cs⟩
  | fuel + 1, before, cs =>
    match cs with
    | '"' :: rest => do
      let (name, after) ← readJsonString rest
      match skipJsonBlanks after with
      | ':' :: after => do
        let (v, after) ← readJsonValue fuel (skipJsonBlanks after)
        let fields := putField name v before
        match skipJsonBlanks after with
        | '}' :: after => .ok (fields, after)
        | ',' :: after => readJsonFields fuel fields (skipJsonBlanks after)
        | here => .error ⟨.expectedComma, here⟩
      | here => .error ⟨.expectedColon, here⟩
    | _ => .error ⟨.expectedName, cs⟩

/-- The items of an array from a value on. -/
def readJsonItems : Nat → List Char → JsonResult (List Json × List Char)
  | 0, cs => .error ⟨.expectedValue, cs⟩
  | fuel + 1, cs => do
    let (v, after) ← readJsonValue fuel cs
    match skipJsonBlanks after with
    | ']' :: after => .ok ([v], after)
    | ',' :: after => do
      let (vs, after) ← readJsonItems fuel (skipJsonBlanks after)
      .ok (v :: vs, after)
    | here => .error ⟨.expectedComma, here⟩

end

/-- The value of a whole text. -/
def readJson (cs : List Char) : JsonResult Json :=
  if cs.head? = some (Char.ofNat 0xfeff) then .error ⟨.byteOrderMark, cs⟩
  else do
    let (v, after) ← readJsonValue (2 * cs.length + 2) (skipJsonBlanks cs)
    match skipJsonBlanks after with
    | [] => .ok v
    | here => .error ⟨.extraData, here⟩

end HeaderBinding
