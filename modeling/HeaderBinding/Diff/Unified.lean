/-
The difference of two texts, as hunks of lines with some context.

* `shownEdits`: a kept line is shown if a changed one is at most three
  lines away;
* `hunks`: the runs of shown lines, with their places;
* `unifiedDiff`: the text of the difference.
-/
import HeaderBinding.Diff.Script
import HeaderBinding.Text.Lines
import HeaderBinding.Text.Search

namespace HeaderBinding

/-- The number of kept lines that are shown beside a changed one. -/
def contextLines : Nat := 3

/-- Whether a changed line is at most `reach` lines ahead. -/
def changeAhead (es : List Edit) (reach : Nat) : Bool :=
  (es.take reach).any (·.kind ≠ .keep)

/-- The steps, each told whether it is shown.  The last changed line is
`reach` lines short of being too far behind. -/
def shownEdits : Nat → List Edit → List (Edit × Bool)
  | _, [] => []
  | reach, e :: es =>
    if e.kind ≠ .keep then (e, true) :: shownEdits contextLines es
    else
      (e, reach ≠ 0 || changeAhead es contextLines)
        :: shownEdits (reach - 1) es

/-- Lines that are shown together, with the numbers of old and of new
lines before them. -/
structure Hunk where
  oldBefore : Nat
  newBefore : Nat
  edits : List Edit
deriving DecidableEq, Repr

/-- The number of old lines that a step takes. -/
def Edit.oldCount (e : Edit) : Nat :=
  if e.kind = .add then 0 else 1

/-- The number of new lines that a step makes. -/
def Edit.newCount (e : Edit) : Nat :=
  if e.kind = .remove then 0 else 1

/-- The runs of shown lines, where so many old and new lines came
before. -/
def hunksFrom (old new : Nat) : List (Edit × Bool) → List Hunk
  | [] => []
  | (e, shown) :: rest =>
    let later := hunksFrom (old + e.oldCount) (new + e.newCount) rest
    if shown then
      match rest, later with
      | (_, true) :: _, h :: hs => ⟨old, new, e :: h.edits⟩ :: hs
      | _, _ => ⟨old, new, [e]⟩ :: later
    else later

/-- The runs of shown lines of a script. -/
def hunks (es : List Edit) : List Hunk :=
  hunksFrom 0 0 (shownEdits 0 es)

/-- The place of a hunk on one side.  Lines are counted from one; an empty
run is told by the line before it. -/
def rangeText (before count : Nat) : String :=
  if count = 1 then toString (before + 1)
  else toString (if count = 0 then before else before + 1) ++ ","
    ++ toString count

/-- A step as it is shown. -/
def Edit.render (e : Edit) : String :=
  match e.kind with
  | .keep => " " ++ e.text
  | .remove => "-" ++ e.text
  | .add => "+" ++ e.text

/-- The lines of a hunk. -/
def Hunk.lines (h : Hunk) : List String :=
  ("@@ -" ++ rangeText h.oldBefore (oldSide h.edits).length ++ " +"
      ++ rangeText h.newBefore (newSide h.edits).length ++ " @@")
    :: h.edits.map Edit.render

/-- The lines that are compared. -/
def comparedLines (text : String) : List String :=
  (splitLines (replaceAll ['\r', '\n'] ['\n'] text.toList)).map
    String.ofList

/-- The difference of two texts with labels; it is empty if no line
differs. -/
def unifiedDiff (oldLabel newLabel old new : String) : String :=
  match hunks (editScript (comparedLines old) (comparedLines new)) with
  | [] => ""
  | hs =>
    "\n".intercalate
      (("--- " ++ oldLabel) :: ("+++ " ++ newLabel)
        :: hs.flatMap Hunk.lines)

end HeaderBinding
