/-
Taking the text of an Objective-C type apart.

* `stripQualifiers`: the type without qualifiers, `const` and tags;
* `splitPointers`: the pointed-to type and the number of stars;
* `splitGeneric`: the name and the arguments of a generic type;
* `isBlockText`, `isFunctionPointerText`: the two kinds of callables;
* `baseOf`: the name of the type, without qualifiers and stars.
-/
import HeaderBinding.Text.Search
import HeaderBinding.Text.Word

namespace HeaderBinding

/-- The words that qualify a type without changing what it is mapped
to. -/
def qualifierWords : List String :=
  ["_Nullable", "_Nonnull", "_Null_unspecified", "__nullable",
    "__nonnull", "nullable", "nonnull", "null_unspecified",
    "null_resettable", "__strong", "__weak", "__unsafe_unretained",
    "__autoreleasing", "__block", "__kindof", "__restrict", "restrict",
    "volatile", "oneway", "inout", "in", "out", "bycopy", "byref"]

/-- The words that are left out of a type. -/
def strippedWords : List (List Char) :=
  ("const" :: qualifierWords).map String.toList

/-- The tags that may stand before the name of a type. -/
def tagPrefixes : List (List Char) :=
  ["struct ", "enum ", "union "].map String.toList

/-- The text without a tag at its start. -/
def dropTag (cs : List Char) : List Char :=
  (tagPrefixes.findSome? fun tag => tag.isPrefixOf? cs).getD cs

/-- The type without qualifiers, `const`, needless blanks and a tag. -/
def stripQualifiers (cs : List Char) : List Char :=
  dropTag (squeeze (blankOutWords strippedWords cs))

/-- The word `const` occurs. -/
def isConstQualified (cs : List Char) : Bool :=
  hasWord "const".toList cs

/-- A blank or a star. -/
def isPointerMark (c : Char) : Bool :=
  c == '*' || isBlank c

/-- The text before the stars at the end, and their number.  Blanks
between the stars do not count. -/
def splitPointers (cs : List Char) : List Char × Nat :=
  let reversed := (trim cs).reverse
  ((reversed.dropWhile isPointerMark).reverse,
    (reversed.takeWhile isPointerMark).count '*')

/-- Somewhere a parenthesis opens and, blanks apart, a text that `next`
accepts follows. -/
def opensBefore (next : List Char → Bool) : List Char → Bool
  | [] => false
  | c :: cs =>
    (c = '(' && next (cs.dropWhile isBlank)) || opensBefore next cs

/-- A caret stands behind an opening parenthesis. -/
def isBlockText (cs : List Char) : Bool :=
  opensBefore (fun after => after.head? = some '^') cs

/-- A star stands alone in parentheses. -/
def isFunctionPointerText (cs : List Char) : Bool :=
  opensBefore (fun after =>
    after.head? = some '*'
      && (after.tail.dropWhile isBlank).head? = some ')') cs

/-- The name and the arguments in angle brackets.  Without brackets the
whole text is the name. -/
def splitGeneric (cs : List Char) : List Char × List (List Char) :=
  let inner := (((cs.dropWhile (· ≠ '<')).tail.reverse).dropWhile
    (· ≠ '>')).tail.reverse
  if (cs.dropWhile (· ≠ '<')).contains '>' then
    (trim (cs.takeWhile (· ≠ '<')), topLevelParts ['<'] ['>'] inner)
  else (cs, [])

/-- The name of the type, without qualifiers and stars. -/
def baseOf (cs : List Char) : List Char :=
  (splitPointers (stripQualifiers cs)).1

/-- The name of the type, without qualifiers and stars. -/
def baseTypeName (type : String) : String :=
  String.ofList (baseOf type.toList)

end HeaderBinding
