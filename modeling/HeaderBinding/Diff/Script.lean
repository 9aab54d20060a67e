/-
The steps that lead from one list of lines to another.

* `longestMatch`: the longest run of equal lines, the first of those;
* `editScript`: what stands before and behind that run is compared by
  itself, and lines that match nothing are removed and added;
* `oldSide_editScript`: the lines kept and removed are the old ones.

A line that makes up much of a long new text, such as a lone brace, does
not start a match, but it can make one longer.
-/

namespace HeaderBinding

/-! ### Matches -/

/-- A line of the new text, and whether it is too common there to start a
match. -/
structure NewLine where
  text : String
  common : Bool
deriving DecidableEq, Repr

/-- So many lines may be the same before they count as common; short
texts have no common lines. -/
def isCommonCount (total count : Nat) : Bool :=
  200 ≤ total && total / 100 + 1 < count

/-- The lines of the new text, each told whether it is common. -/
def markCommon (lines : List String) : List NewLine :=
  lines.map fun text =>
    ⟨text, isCommonCount lines.length (lines.count text)⟩

/-- A run of equal lines: where it starts on either side, and its
length. -/
structure LineMatch where
  old : Nat
  new : Nat
  size : Nat
deriving DecidableEq, Repr

/-- The better of a match and those that end at the old line `i` and, from
`j` on, at the new lines; `sizes` are their lengths. -/
def LineMatch.improve (best : LineMatch) (i : Nat) :
    Nat → List Nat → LineMatch
  | _, [] => best
  | j, size :: sizes =>
    (if best.size < size then ⟨i + 1 - size, j + 1 - size, size⟩
      else best).improve i (j + 1) sizes

/-- The lengths of the matches that end at an old line, from those that
end at the line before it. -/
def matchRow (line : String) (new : List NewLine) (above : List Nat) :
    List Nat :=
  List.zipWith (fun b size =>
    if b.text == line && !b.common then size + 1 else 0)
    new (0 :: above)

/-- The first longest match of lines that are not common, from the old
line `i` on. -/
def searchMatch (new : List NewLine) :
    LineMatch → Nat → List Nat → List String → LineMatch
  | best, _, _, [] => best
  | best, i, above, line :: old =>
    let row := matchRow line new above
    searchMatch new (best.improve i 0 row) (i + 1) row old

/-- The number of lines that two texts share at their starts. -/
def commonPrefix : List String → List NewLine → Nat
  | a :: as, b :: bs => if a == b.text then commonPrefix as bs + 1 else 0
  | _, _ => 0

/-- The match with all equal lines that stand beside it. -/
def LineMatch.extend (m : LineMatch) (old : List String)
    (new : List NewLine) : LineMatch :=
  let before :=
    commonPrefix (old.take m.old).reverse (new.take m.new).reverse
  let behind :=
    commonPrefix (old.drop (m.old + m.size)) (new.drop (m.new + m.size))
  ⟨m.old - before, m.new - before, m.size + before + behind⟩

/-- The run of equal lines that the comparison starts from. -/
def longestMatch (old : List String) (new : List NewLine) : LineMatch :=
  (searchMatch new ⟨0, 0, 0⟩ 0 (new.map fun _ => 0) old).extend old new

/-! ### Scripts -/

/-- What happens to a line. -/
inductive EditKind
  | keep
  | remove
  | add
deriving DecidableEq, Repr

/-- A line, and what happens to it. -/
structure Edit where
  kind : EditKind
  text : String
deriving DecidableEq, Repr

/-- The steps from the old lines to the new ones. -/
def scriptBetween (old : List String) (new : List NewLine) : List Edit :=
  let m := longestMatch old new
  if _h : 0 < m.size ∧ m.old < old.length then
    scriptBetween (old.take m.old) (new.take m.new)
      ++ ((old.drop m.old).take m.size).map (⟨.keep, ·⟩)
      ++ scriptBetween (old.drop (m.old + m.size))
        (new.drop (m.new + m.size))
  else old.map (⟨.remove, ·⟩) ++ new.map (⟨.add, ·.text⟩)
termination_by old.length
decreasing_by
  · simp only [m] at _h
    simp only [List.length_take]
    omega
  · simp only [m] at _h
    simp only [List.length_drop]
    omega

/-- The steps from one text to another. -/
def editScript (old new : List String) : List Edit :=
  scriptBetween old (markCommon new)

/-- The lines of the old text in a script. -/
def oldSide (es : List Edit) : List String :=
  (es.filter (·.kind ≠ .add)).map (·.text)

/-- The lines of the new text in a script. -/
def newSide (es : List Edit) : List String :=
  (es.filter (·.kind ≠ .remove)).map (·.text)

theorem oldSide_append (es fs : List Edit) :
    oldSide (es ++ fs) = oldSide es ++ oldSide fs := by
  simp [oldSide]

theorem oldSide_map {kind : EditKind} (h : kind ≠ .add)
    (lines : List String) :
    oldSide (lines.map (⟨kind, ·⟩)) = lines := by
  simp [oldSide, List.filter_map, Function.comp_def, h]

theorem oldSide_map_add (lines : List NewLine) :
    oldSide (lines.map (⟨.add, ·.text⟩)) = [] := by
  simp [oldSide]

theorem oldSide_scriptBetween (old : List String) (new : List NewLine) :
    oldSide (scriptBetween old new) = old := by
  fun_induction scriptBetween old new with
  | case1 old new m h ih1 ih2 =>
    have hk : EditKind.keep ≠ .add := by decide
    rw [oldSide_append, oldSide_append, ih1, ih2, oldSide_map hk,
      List.append_assoc, ← List.drop_drop, List.take_append_drop,
      List.take_append_drop]
  | case2 old new =>
    have hr : EditKind.remove ≠ .add := by decide
    rw [oldSide_append, oldSide_map hr, oldSide_map_add,
      List.append_nil]

theorem oldSide_editScript (old new : List String) :
    oldSide (editScript old new) = old :=
  oldSide_scriptBetween old (markCommon new)

end HeaderBinding
