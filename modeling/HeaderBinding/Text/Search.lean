/-
Finding, replacing and splitting by a fixed piece of text.

* `cutAt?`: what stands before and after the first occurrence;
* `cutAt?_eq_some`: the two sides and the piece make up the text;
* `hasPiece_iff`: a piece is found exactly if it is a part of the text;
* `replaceAll`: every occurrence, from the left, without overlaps;
* `splitAtChar`: the pieces between the occurrences of a character;
* `topLevelParts`: the pieces between commas outside brackets;
* `endsHere`: nothing but perhaps one line feed is left of a text.
-/
import HeaderBinding.Text.Trim

namespace HeaderBinding

/-- The text before and after the first occurrence of `piece`. -/
def cutAt? (piece : List Char) :
    List Char → Option (List Char × List Char)
  | [] => if piece.isEmpty then some ([], []) else none
  | c :: cs =>
    if piece.isPrefixOf (c :: cs) then
      some ([], (c :: cs).drop piece.length)
    else (cutAt? piece cs).map fun sides => (c :: sides.1, sides.2)

theorem cutAt?_eq_some {piece cs before after : List Char}
    (h : cutAt? piece cs = some (before, after)) :
    cs = before ++ piece ++ after := by
  induction cs generalizing before with
  | nil =>
    simp only [cutAt?] at h
    split at h
    · simp_all
    · simp at h
  | cons c cs ih =>
    simp only [cutAt?] at h
    split at h
    · rename_i hp
      obtain ⟨t, ht⟩ := List.isPrefixOf_iff_prefix.mp hp
      simp only [Option.some.injEq, Prod.mk.injEq] at h
      obtain ⟨rfl, rfl⟩ := h
      rw [← ht]
      simp
    · obtain ⟨⟨b, a⟩, hba, heq⟩ := Option.map_eq_some_iff.mp h
      simp only [Prod.mk.injEq] at heq
      obtain ⟨rfl, rfl⟩ := heq
      simp [ih hba]

/-- The piece occurs in the text. -/
def hasPiece (piece cs : List Char) : Bool :=
  (cutAt? piece cs).isSome

theorem hasPiece_iff {piece cs : List Char} :
    hasPiece piece cs = true ↔ piece <:+: cs := by
  rw [hasPiece]
  induction cs with
  | nil =>
    rw [cutAt?, List.infix_nil, ← List.isEmpty_iff]
    split <;> simp_all
  | cons c cs ih =>
    rw [cutAt?, List.infix_cons_iff, ← List.isPrefixOf_iff_prefix, ← ih]
    split
    · rename_i h
      exact iff_of_true rfl (.inl h)
    · rename_i h
      rw [Option.isSome_map, or_iff_right h]

/-- The string `piece` occurs in the string `s`. -/
def occursIn (piece s : String) : Bool :=
  hasPiece piece.toList s.toList

/-- Replacing from the left; the first `skip` characters belong to an
occurrence that was replaced already. -/
def replaceFrom (piece new : List Char) :
    Nat → List Char → List Char
  | _, [] => []
  | skip + 1, _ :: cs => replaceFrom piece new skip cs
  | 0, c :: cs =>
    if piece.isPrefixOf (c :: cs) then
      new ++ replaceFrom piece new (piece.length - 1) cs
    else c :: replaceFrom piece new 0 cs

/-- Every occurrence of a non-empty piece, taken from the left without
overlaps, gives way to `new`. -/
def replaceAll (piece new cs : List Char) : List Char :=
  replaceFrom piece new 0 cs

/-- The pieces between the occurrences of a character. -/
def splitAtChar (sep : Char) : List Char → List (List Char)
  | [] => [[]]
  | c :: cs =>
    if c = sep then [] :: splitAtChar sep cs
    else
      match splitAtChar sep cs with
      | [] => [[c]]
      | p :: ps => (c :: p) :: ps

/-- The pieces between commas at depth zero.  The depth starts as given,
rises at the `openers` and falls at the `closers`. -/
def splitAtDepth (openers closers : List Char) :
    Int → List Char → List (List Char)
  | _, [] => [[]]
  | depth, c :: cs =>
    let after := if openers.contains c then depth + 1
      else if closers.contains c then depth - 1 else depth
    if c = ',' ∧ after = 0 then [] :: splitAtDepth openers closers after cs
    else
      match splitAtDepth openers closers after cs with
      | [] => [[c]]
      | p :: ps => (c :: p) :: ps

/-- The trimmed pieces between commas outside brackets; a blank piece
counts unless it is the last. -/
def topLevelParts (openers closers cs : List Char) : List (List Char) :=
  let parts := splitAtDepth openers closers 0 cs
  let last := (parts.getLast?.getD []) |> trim
  (parts.dropLast.map trim) ++ (if last.isEmpty then [] else [last])

/-- The text ends here, a line feed at its very end apart. -/
def endsHere (cs : List Char) : Bool :=
  cs.isEmpty || cs = ['\n']

end HeaderBinding
