/-
A text does not differ from itself.

* `soundRun`: how many lines that are not common end at a line; no match
  that ends there is longer (`Bounded.matchRow`);
* `onDiagonal_searchMatch`: so the first longest match of a text with
  itself starts at the same line on either side;
* `longestMatch_self`: with what stands beside it, that is all of the text;
* `unifiedDiff_self`: nothing is shown.
-/
import Mathlib.Tactic.Lemma
import HeaderBinding.Diff.Unified

namespace HeaderBinding

/-! ### Runs of lines that are not common -/

/-- The number of lines that are not common and stand together before the
line with the number. -/
def soundRun (new : List NewLine) : Nat → Nat
  | 0 => 0
  | k + 1 => if (new[k]?).any (!·.common) then soundRun new k + 1 else 0

lemma soundRun_le (new : List NewLine) (k : Nat) : soundRun new k ≤ k := by
  induction k with
  | zero => exact Nat.le_refl 0
  | succ k ih =>
      rw [soundRun]
      split <;> omega

/-- The lengths of the matches that end before the old line `i`, with one
in front for those that have not begun: none is longer than the runs on
either side, and the one on the diagonal is as long. -/
structure Bounded (new : List NewLine) (i : Nat) (sizes : List Nat) :
    Prop where
  length : sizes.length = new.length + 1
  new_le : ∀ j (h : j < sizes.length), sizes[j] ≤ soundRun new j
  old_le : ∀ j (h : j < sizes.length), sizes[j] ≤ soundRun new i
  diagonal : ∀ h : i < sizes.length, sizes[i] = soundRun new i

/-- Lines with the same text are all common, or none is. -/
def TextTells (new : List NewLine) : Prop :=
  ∀ b ∈ new, ∀ c ∈ new, b.text = c.text → b.common = c.common

variable {new : List NewLine} {i : Nat} {above : List Nat}

lemma bounded_zero (new : List NewLine) :
    Bounded new 0 (0 :: new.map fun _ => 0) where
  length := by simp
  new_le := by
    intro j h
    cases j with
    | zero => exact Nat.le_refl 0
    | succ j => simp
  old_le := by
    intro j h
    cases j with
    | zero => exact Nat.le_refl 0
    | succ j => simp
  diagonal := fun _ => rfl

lemma soundRun_succ {j : Nat} (hj : j < new.length) :
    soundRun new (j + 1)
      = if new[j].common then 0 else soundRun new j + 1 := by
  rw [soundRun, List.getElem?_eq_getElem hj, Option.any_some]
  cases new[j].common <;> rfl

/-- The next line keeps the lengths of matches within the runs. -/
lemma Bounded.next (h : Bounded new i (0 :: above)) (htells : TextTells new)
    (hi : i < new.length) :
    Bounded new (i + 1) (0 :: matchRow new[i].text new above) := by
  have hlength : (matchRow new[i].text new above).length = new.length := by
    have := h.length
    rw [matchRow, List.length_zipWith]
    omega
  -- a match goes on only where the lines are the same and not common
  have hentry : ∀ j (hj : j < (matchRow new[i].text new above).length)
      (hj' : j < new.length),
      (matchRow new[i].text new above)[j] = 0
        ∨ new[j].text = new[i].text ∧ new[j].common = false
          ∧ (matchRow new[i].text new above)[j]
            = (0 :: above).get ⟨j, by rw [h.length]; omega⟩ + 1 := by
    intro j hj hj'
    simp only [matchRow, List.getElem_zipWith]
    split
    · rename_i hmatch
      simp only [Bool.and_eq_true, beq_iff_eq, Bool.not_eq_true'] at hmatch
      exact .inr ⟨hmatch.1, hmatch.2, rfl⟩
    · exact .inl rfl
  refine ⟨by rw [List.length_cons, hlength], ?_, ?_, ?_⟩
  · intro j hj
    cases j with
    | zero => exact Nat.le_refl 0
    | succ j =>
        have hj' : j < new.length := by simpa [hlength] using hj
        rw [List.getElem_cons_succ, soundRun_succ hj']
        rcases hentry j _ hj' with h0 | ⟨-, hsound, hmore⟩
        · omega
        · have := h.new_le j (by rw [h.length]; omega)
          rw [hsound, hmore]
          simpa using this
  · intro j hj
    cases j with
    | zero => exact Nat.zero_le _
    | succ j =>
        have hj' : j < new.length := by simpa [hlength] using hj
        rw [List.getElem_cons_succ, soundRun_succ hi]
        rcases hentry j _ hj' with h0 | ⟨htext, hsound, hmore⟩
        · omega
        · have := h.old_le j (by rw [h.length]; omega)
          rw [← htells _ (List.getElem_mem hj') _ (List.getElem_mem hi) htext,
            hsound, hmore]
          simpa using this
  · intro hlt
    rw [List.getElem_cons_succ, soundRun_succ hi]
    have hdiagonal := h.diagonal (by rw [h.length]; omega)
    simp only [matchRow, List.getElem_zipWith, hdiagonal, beq_self_eq_true,
      Bool.true_and]
    cases new[i].common <;> rfl

/-! ### The first longest match -/

/-- The match starts at the same line on either side, and ends before the
line with the number. -/
structure LineMatch.OnDiagonal (m : LineMatch) (i : Nat) : Prop where
  same : m.old = m.new
  before : m.old + m.size ≤ i

lemma improve_append (best : LineMatch) (i j : Nat) (xs ys : List Nat) :
    best.improve i j (xs ++ ys)
      = (best.improve i j xs).improve i (j + xs.length) ys := by
  induction xs generalizing best j with
  | nil => rfl
  | cons x xs ih =>
      rw [List.cons_append, LineMatch.improve, ih, LineMatch.improve,
        List.length_cons, Nat.add_assoc, Nat.add_comm 1]

/-- Matches that are not longer do not count. -/
lemma improve_of_le {best : LineMatch} {sizes : List Nat}
    (h : ∀ size ∈ sizes, size ≤ best.size) (i j : Nat) :
    best.improve i j sizes = best := by
  induction sizes generalizing j with
  | nil => rfl
  | cons size sizes ih =>
      rw [List.forall_mem_cons] at h
      rw [LineMatch.improve, if_neg (Nat.not_lt.mpr h.1), ih h.2]

/-- The matches that end at an old line: before the diagonal none is
longer than the best so far, and behind it none is longer than that on the
diagonal. -/
lemma improve_of_bounded {best : LineMatch} {row : List Nat}
    (hruns : ∀ k ≤ i, soundRun new k ≤ best.size)
    (hrow : Bounded new (i + 1) (0 :: row)) (hi : i < new.length) :
    best.improve i 0 row
      = if best.size < soundRun new (i + 1) then
          ⟨i + 1 - soundRun new (i + 1), i + 1 - soundRun new (i + 1),
            soundRun new (i + 1)⟩
        else best := by
  have hlength : row.length = new.length := by
    have := hrow.length
    rw [List.length_cons] at this
    omega
  have hsplit : row = row.take i ++ row[i] :: row.drop (i + 1) := by
    rw [List.getElem_cons_drop, List.take_append_drop]
  have hdiagonal : row[i] = soundRun new (i + 1) :=
    hrow.diagonal (by rw [hrow.length]; omega)
  have hbefore : ∀ size ∈ row.take i, size ≤ best.size := by
    intro size hsize
    obtain ⟨j, hj, rfl⟩ := List.getElem_of_mem hsize
    rw [List.length_take] at hj
    have := hrow.new_le (j + 1) (by rw [hrow.length]; omega)
    rw [List.getElem_cons_succ] at this
    rw [List.getElem_take]
    exact Nat.le_trans this (hruns _ (by omega))
  have hbehind : ∀ size ∈ row.drop (i + 1), size ≤ soundRun new (i + 1) := by
    intro size hsize
    obtain ⟨j, hj, rfl⟩ := List.getElem_of_mem hsize
    rw [List.length_drop] at hj
    have := hrow.old_le (i + 1 + j + 1) (by rw [hrow.length]; omega)
    rw [List.getElem_cons_succ] at this
    rwa [List.getElem_drop]
  have hlen : 0 + (row.take i).length = i := by
    rw [List.length_take]
    omega
  rw [hsplit, improve_append, improve_of_le hbefore, hlen,
    LineMatch.improve, hdiagonal]
  refine improve_of_le (fun size hsize => ?_) i (i + 1)
  have := hbehind size hsize
  split <;> omega

/-- So the best match stays on the diagonal, and is as long as any run that
ends there. -/
lemma onDiagonal_improve {best : LineMatch} {row : List Nat}
    (hbest : best.OnDiagonal i) (hruns : ∀ k ≤ i, soundRun new k ≤ best.size)
    (hrow : Bounded new (i + 1) (0 :: row)) (hi : i < new.length) :
    (best.improve i 0 row).OnDiagonal (i + 1)
      ∧ ∀ k ≤ i + 1, soundRun new k ≤ (best.improve i 0 row).size := by
  have hle := soundRun_le new (i + 1)
  rw [improve_of_bounded hruns hrow hi]
  split
  · rename_i hlonger
    refine ⟨⟨rfl, by dsimp only; omega⟩, fun k hk => ?_⟩
    by_cases hlast : k = i + 1
    · exact hlast ▸ Nat.le_refl _
    · have := hruns k (by omega)
      dsimp only
      omega
  · refine ⟨⟨hbest.same, by have := hbest.before; omega⟩, fun k hk => ?_⟩
    by_cases hlast : k = i + 1
    · rw [hlast]
      omega
    · exact hruns k (by omega)

/-- The first longest match of a text with itself is on the diagonal. -/
lemma onDiagonal_searchMatch (htells : TextTells new) {best : LineMatch}
    {old : List String} (hold : old = (new.drop i).map (·.text))
    (hbest : best.OnDiagonal i) (hruns : ∀ k ≤ i, soundRun new k ≤ best.size)
    (habove : Bounded new i (0 :: above)) (hi : i ≤ new.length) :
    (searchMatch new best i above old).OnDiagonal new.length := by
  induction old generalizing i best above with
  | nil =>
      have hend : new.length ≤ i := by
        simpa using hold.symm
      exact ⟨hbest.same, Nat.le_trans hbest.before hi⟩
  | cons line old ih =>
      have hlt : i < new.length := Nat.lt_of_not_le fun hge => by
        rw [List.drop_eq_nil_of_le hge] at hold
        cases hold
      rw [List.drop_eq_getElem_cons hlt, List.map_cons,
        List.cons.injEq] at hold
      obtain ⟨rfl, hold⟩ := hold
      have hnext := habove.next htells hlt
      obtain ⟨hdiagonal, hmore⟩ := onDiagonal_improve hbest hruns hnext hlt
      exact ih hold hdiagonal hmore hnext hlt

/-! ### All of the text -/

lemma commonPrefix_self (new : List NewLine) :
    commonPrefix (new.map (·.text)) new = new.length := by
  induction new with
  | nil => rfl
  | cons b new ih =>
      rw [List.map_cons, commonPrefix, if_pos (beq_self_eq_true _), ih,
        List.length_cons]

/-- A match on the diagonal is a part of the match of all lines. -/
lemma extend_self {m : LineMatch} (h : m.OnDiagonal new.length) :
    m.extend (new.map (·.text)) new = ⟨0, 0, new.length⟩ := by
  obtain ⟨hsame, hbefore⟩ := h
  rw [LineMatch.extend, ← hsame, ← List.map_take, ← List.map_reverse,
    commonPrefix_self, ← List.map_drop, commonPrefix_self]
  simp only [List.length_reverse, List.length_take, List.length_drop,
    LineMatch.mk.injEq]
  omega

lemma textTells_markCommon (lines : List String) :
    TextTells (markCommon lines) := by
  intro b hb c hc htext
  obtain ⟨b, -, rfl⟩ := List.mem_map.mp hb
  obtain ⟨c, -, rfl⟩ := List.mem_map.mp hc
  exact congrArg (fun text => isCommonCount lines.length (lines.count text))
    htext

lemma map_text_markCommon (lines : List String) :
    (markCommon lines).map (·.text) = lines := by
  rw [markCommon, List.map_map]
  exact List.map_id lines

/-- The longest match of a text with itself, with what stands beside it, is
all of the text. -/
theorem longestMatch_self (lines : List String) :
    longestMatch lines (markCommon lines) = ⟨0, 0, lines.length⟩ := by
  have hlength : (markCommon lines).length = lines.length := List.length_map _
  have hsearch : (searchMatch (markCommon lines) ⟨0, 0, 0⟩ 0
      ((markCommon lines).map fun _ => 0) lines).OnDiagonal
        (markCommon lines).length :=
    onDiagonal_searchMatch (textTells_markCommon lines)
      (map_text_markCommon lines).symm ⟨rfl, Nat.le_refl 0⟩
      (fun k hk => by rw [Nat.le_zero.mp hk]; exact Nat.le_refl 0)
      (bounded_zero _) (Nat.zero_le _)
  have hextend := extend_self hsearch
  rw [map_text_markCommon, hlength] at hextend
  exact hextend

lemma scriptBetween_nil : scriptBetween [] [] = [] := by
  rw [scriptBetween]
  simp

/-- Every line is kept. -/
lemma editScript_self (lines : List String) :
    editScript lines lines = lines.map (⟨.keep, ·⟩) := by
  have hdrop : (markCommon lines).drop lines.length = [] :=
    List.drop_eq_nil_of_le (Nat.le_of_eq (List.length_map _))
  rw [editScript, scriptBetween]
  simp only [longestMatch_self, Nat.zero_add, List.take_zero, List.drop_zero,
    List.take_length, List.drop_length, hdrop, scriptBetween_nil,
    List.nil_append, List.append_nil]
  split
  · rfl
  · rename_i h
    have hnil : lines = [] := List.length_eq_zero_iff.mp (by omega)
    rw [hnil]
    rfl

lemma hunksFrom_hidden (old new : Nat) (e : Edit)
    (rest : List (Edit × Bool)) :
    hunksFrom old new ((e, false) :: rest)
      = hunksFrom (old + e.oldCount) (new + e.newCount) rest := rfl

/-- Where every line is kept, none is shown. -/
lemma hunksFrom_keep (old new : Nat) (lines : List String) :
    hunksFrom old new (shownEdits 0 (lines.map (⟨.keep, ·⟩))) = [] := by
  induction lines generalizing old new with
  | nil => rfl
  | cons line lines ih =>
      have hahead : changeAhead (lines.map (⟨.keep, ·⟩)) contextLines
          = false := by
        rw [changeAhead, ← List.map_take, List.any_map, List.any_eq_false]
        simp
      rw [List.map_cons, shownEdits, if_neg (by simp), hahead]
      exact (hunksFrom_hidden ..).trans (ih _ _)

/-- Nothing is shown of a text that is compared with itself. -/
theorem unifiedDiff_self (oldLabel newLabel text : String) :
    unifiedDiff oldLabel newLabel text text = "" := by
  rw [unifiedDiff, editScript_self, hunks, hunksFrom_keep]

end HeaderBinding
