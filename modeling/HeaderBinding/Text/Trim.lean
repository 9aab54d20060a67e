/-
Removing blanks at the ends of a text and squeezing those inside.

* `trim`: no blank at either end;
* `squeeze`: the same, and one space for each run of blanks inside.
-/
import HeaderBinding.Text.Character

namespace HeaderBinding

/-- The text without the blanks at its start. -/
def trimLeft (cs : List Char) : List Char :=
  cs.dropWhile isBlank

/-- The text without the blanks at its end. -/
def trimRight (cs : List Char) : List Char :=
  (cs.reverse.dropWhile isBlank).reverse

/-- The text without the blanks at either end. -/
def trim (cs : List Char) : List Char :=
  trimRight (trimLeft cs)

/-- Nothing but blanks. -/
def allBlank (cs : List Char) : Bool :=
  cs.all isBlank

/-- The blank-separated pieces of a text; none of them is empty. -/
def blankSeparated : List Char → List (List Char)
  | [] => []
  | c :: cs =>
    if isBlank c then blankSeparated cs
    else
      match cs with
      | [] => [[c]]
      | d :: _ =>
        if isBlank d then [c] :: blankSeparated cs
        else
          match blankSeparated cs with
          | [] => [[c]]
          | w :: ws => (c :: w) :: ws

/-- Every run of blanks becomes one space; those at the ends go. -/
def squeeze (cs : List Char) : List Char :=
  [' '].intercalate (blankSeparated cs)

end HeaderBinding
