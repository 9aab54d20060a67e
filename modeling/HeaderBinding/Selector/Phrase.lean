/-
The parts of a selector segment that a name does not keep, and the parts
that it spells differently.

* `isSenderSegment`, `stripSenderPrefix?`: the object that a delegate
  method is about;
* `stripTrailingContext`: a phrase that starts with a preposition;
* `renameBlockWord`, `collapseIsEqualTo`, `normalizeAcronyms`,
  `pascalCase`: spellings.
-/
import HeaderBinding.Selector.CamelWord
import HeaderBinding.Text.Case
import HeaderBinding.Text.Search

namespace HeaderBinding

/-! ### Senders -/

/-- The last words of the names of objects that have a delegate. -/
def senderSuffixes : List String :=
  ["Controller", "View", "Manager", "Delegate", "Session", "Cache",
    "Provider", "Bar", "Cell", "Picker", "Inspector", "Toolbar", "Button",
    "Item", "Store", "Search", "HUD", "Scrubber", "Presenter",
    "Container", "Coordinator"]

/-- The words that tell what happens to the sender. -/
def senderVerbs : List String :=
  ["Did", "Will", "Should", "Can", "Get", "Set"]

/-- The segment names a sender. -/
def isSenderSegment (segment : String) : Bool :=
  senderSuffixes.any fun s => s.toList.isSuffixOf segment.toList

/-- What follows each occurrence of a piece. -/
def afterOccurrences (piece : List Char) : List Char → List (List Char)
  | [] => []
  | c :: cs =>
    (piece.isPrefixOf? (c :: cs)).toList ++ afterOccurrences piece cs

/-- The text from the first of the words on that is a verb of a sender,
where the words are taken to stand side by side. -/
def fromSenderVerb? : List (List Char) → List Char → Option (List Char)
  | [], _ => none
  | word :: words, cs =>
    if senderVerbs.contains (String.ofList word) then some cs
    else fromSenderVerb? words (cs.drop word.length)

/-- The segment from its verb on, if a sender comes before it that does
not stand at the start. -/
def stripSenderPrefix? (segment : String) : Option String :=
  let cs := segment.toList
  let rests := senderSuffixes.flatMap fun s =>
    (afterOccurrences s.toList cs.tail).filter (·.head?.any isCapital)
  (rests.findSome? fun rest => fromSenderVerb? (camelWords rest) rest).map
    fun rest => String.ofList (uncapitalize rest)

/-! ### Trailing phrases -/

/-- The prepositions that start a phrase which a name does not keep.  The
short ones mostly stand inside what a name is about, and are kept. -/
def trailingPrepositions : List String :=
  ["With", "At", "For", "From", "Using"]

/-- A word at the end that a name does not keep. -/
def trailingQualifier : List Char :=
  "Animated".toList

/-- A preposition with a capital behind it stands at the start. -/
def startsPhrase (cs : List Char) : Bool :=
  trailingPrepositions.any fun p =>
    (p.toList.isPrefixOf? cs).any (·.head?.any isCapital)

/-- The text before the first phrase. -/
def beforePhrase : List Char → List Char
  | [] => []
  | c :: cs => if startsPhrase (c :: cs) then [] else c :: beforePhrase cs

/-- The text without the qualifier at its end, unless it is nothing
else. -/
def dropQualifier (cs : List Char) : List Char :=
  if trailingQualifier.isSuffixOf cs
      ∧ trailingQualifier.length < cs.length then
    cs.take (cs.length - trailingQualifier.length)
  else cs

/-- The segment before its first phrase, which does not count at the
start, and without the qualifier at its end. -/
def stripTrailingContext (segment : String) : String :=
  match segment.toList with
  | [] => ""
  | c :: cs => String.ofList (dropQualifier (c :: beforePhrase cs))

/-! ### Spellings -/

/-- The renaming of `Block` behind the character `prev`. -/
def renameBlockFrom (prev : Option Char) : List Char → List Char
  | 'B' :: 'l' :: 'o' :: 'c' :: 'k' :: cs =>
    if prev.any isCamelTail ∧ (endsHere cs ∨ cs.head?.any Char.isUpper) then
      "Action".toList ++ renameBlockFrom (some 'k') cs
    else 'B' :: renameBlockFrom (some 'B') ('l' :: 'o' :: 'c' :: 'k' :: cs)
  | c :: cs => c :: renameBlockFrom (some c) cs
  | [] => []

/-- The word `Block` inside a name becomes `Action`. -/
def renameBlockWord (name : String) : String :=
  String.ofList (renameBlockFrom none name.toList)

/-- A comparison with a named object is called by its verb alone. -/
def collapseIsEqualTo (name : String) : String :=
  match "isEqualTo".toList.isPrefixOf? name.toList with
  | some (c :: cs) =>
    if c.isUpper ∧ endsHere (cs.dropWhile isWordChar) then "isEqualTo"
    else name
  | _ => name

/-- The acronyms that are written as words, each with its spelling. -/
def acronyms : List (String × String) :=
  [("HTTPS", "Https"), ("HTTP", "Http"), ("HTML", "Html"),
    ("JSON", "Json"), ("UUID", "Uuid"), ("URL", "Url"), ("PDF", "Pdf"),
    ("HUD", "Hud"), ("XML", "Xml")]

/-- Every acronym is written as a word, one after the other. -/
def normalizeAcronyms (cs : List Char) : List Char :=
  acronyms.foldl (fun cs a => replaceAll a.1.toList a.2.toList cs) cs

/-- The name with a capital at its start and acronyms as words. -/
def pascalCase (name : String) : String :=
  String.ofList (normalizeAcronyms (capitalize name.toList))

end HeaderBinding
