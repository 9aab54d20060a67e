/-
Nullability as type texts spell it.

* `hasNullableMarker`: the text names a nullable annotation anywhere;
* `typeIsNullable`: the text says that the value itself may be null.
-/
import HeaderBinding.Text.Search

namespace HeaderBinding

/-- The spellings of a nullable annotation. -/
def nullableMarkers : List String :=
  ["nullable", "_Nullable", "__nullable"]

/-- All nullability annotations. -/
def nullabilityWords : List String :=
  ["nullable", "nonnull", "_Nullable", "_Nonnull", "_Null_unspecified",
    "null_unspecified", "__nullable", "__nonnull"]

/-- A nullable annotation occurs in the text, also inside a longer
word. -/
def hasNullableMarker (text : List Char) : Bool :=
  nullableMarkers.any fun m => hasPiece m.toList text

/-- The text before the first occurrence of a piece, or all of it. -/
def textBefore (piece cs : List Char) : List Char :=
  match cutAt? piece cs with
  | some sides => sides.1
  | none => cs

/-- The value may be null.  In a block type only the annotation beside the
caret speaks of the value; the others speak of its parameters. -/
def typeIsNullable (text : String) : Bool :=
  match cutAt? ['(', '^'] text.toList with
  | some sides => hasNullableMarker (textBefore [')'] sides.2)
  | none => hasNullableMarker text.toList

end HeaderBinding
