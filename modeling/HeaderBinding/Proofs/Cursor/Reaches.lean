/-
What is left of a row of tokens while it is read.

* `Reaches`: reading gets from one row to another and passes over nothing
  but tokens before the end; a preorder (`Reaches.refl`, `Reaches.trans`);
* `Reaches.suffix`, `Reaches.length_le`: what is left is an end part of
  the row, so the place of reading never moves back;
* `Closed`: a row that ends in the token for the end of the input;
  `Reaches.closed` keeps it, so what is left is never empty;
* `reaches_skipGroup`, `reaches_recover`, ...: each function that passes
  over tokens reaches what it leaves.
-/
import Mathlib.Tactic.Lemma
import HeaderBinding.Header.Read

namespace HeaderBinding

/-! ### Rows that are left -/

/-- Reading gets from one row to another by passing over tokens, none of
which is the end of the input. -/
inductive Reaches : List Token → List Token → Prop
  | refl (ts : List Token) : Reaches ts ts
  | pass {t : Token} {ts rest : List Token} (h : t.kind ≠ .endOfInput)
      (hr : Reaches ts rest) : Reaches (t :: ts) rest

namespace Reaches

variable {as bs cs : List Token}

lemma trans (h : Reaches as bs) (h' : Reaches bs cs) : Reaches as cs := by
  induction h with
  | refl => exact h'
  | pass hk _ ih => exact pass hk (ih h')

/-- What is left is an end part of the row. -/
lemma suffix (h : Reaches as bs) : bs <:+ as := by
  induction h with
  | refl => exact List.suffix_refl _
  | pass _ _ ih => exact ih.trans (List.suffix_cons _ _)

lemma length_le (h : Reaches as bs) : bs.length ≤ as.length :=
  h.suffix.length_le

/-- Passing over a token leaves less. -/
lemma length_lt_cons {t : Token} (h : Reaches as bs) :
    bs.length < (t :: as).length := by
  have := h.length_le
  simp only [List.length_cons]
  omega

end Reaches

/-- No token is passed over that is the end. -/
lemma Reaches.forall_ne {us rest : List Token}
    (h : Reaches (us ++ rest) rest) : ∀ u ∈ us, u.kind ≠ .endOfInput := by
  induction us with
  | nil => exact List.forall_mem_nil _
  | cons u us ih =>
      rw [List.cons_append] at h
      generalize hts : u :: (us ++ rest) = ts at h
      cases h with
      | refl =>
          have := congrArg List.length hts
          simp at this
          omega
      | pass hk hr =>
          obtain ⟨rfl, rfl⟩ := List.cons.inj hts
          exact List.forall_mem_cons.mpr ⟨hk, ih hr⟩

/-- The row ends in the token for the end of the input. -/
def Closed (ts : List Token) : Prop :=
  ∃ e, ts.getLast? = some e ∧ e.kind = .endOfInput

lemma Closed.ne_nil {ts : List Token} (h : Closed ts) : ts ≠ [] := by
  rintro rfl
  obtain ⟨e, he, -⟩ := h
  simp at he

/-- Behind a token that is not the end the row goes on to its end. -/
lemma Closed.of_cons {t : Token} {ts : List Token} (h : Closed (t :: ts))
    (hk : t.kind ≠ .endOfInput) : Closed ts := by
  obtain ⟨e, he, hek⟩ := h
  cases ts with
  | nil =>
      rw [List.getLast?_singleton, Option.some.injEq] at he
      exact absurd (he ▸ hek) hk
  | cons u us => exact ⟨e, by rwa [List.getLast?_cons_cons] at he, hek⟩

/-- What is left of a row with an end has it too. -/
lemma Reaches.closed {as bs : List Token} (h : Reaches as bs)
    (hc : Closed as) : Closed bs := by
  induction h with
  | refl => exact hc
  | pass hk _ ih => exact ih (hc.of_cons hk)

/-- A row that is closed afterwards ends in the token for the end. -/
lemma closed_closeTokens (ts : List Token) : Closed (closeTokens ts) := by
  unfold closeTokens
  split
  · exact ⟨_, rfl, rfl⟩
  · rename_i t ht
    split
    · rename_i hk
      exact ⟨t, ht, hk⟩
    · exact ⟨_, List.getLast?_concat .., rfl⟩

/-! ### The next token -/

lemma atEnd_cons_eq_false {t : Token} {ts : List Token} :
    atEnd (t :: ts) = false ↔ t.kind ≠ .endOfInput := by
  simp

lemma exists_cons_of_atEnd_eq_false {ts : List Token}
    (h : atEnd ts = false) :
    ∃ t rest, ts = t :: rest ∧ t.kind ≠ .endOfInput := by
  cases ts with
  | nil => simp at h
  | cons t rest => exact ⟨t, rest, rfl, atEnd_cons_eq_false.mp h⟩

lemma exists_cons_of_headIs {kind : TokenKind} {ts : List Token}
    (h : headIs kind ts = true) : ∃ t rest, ts = t :: rest ∧ t.kind = kind := by
  cases ts with
  | nil => simp at h
  | cons t rest => exact ⟨t, rest, rfl, by simpa using h⟩

lemma exists_cons_of_headIn {kinds : List TokenKind} {ts : List Token}
    (h : headIn kinds ts = true) :
    ∃ t rest, ts = t :: rest ∧ t.kind ∈ kinds := by
  cases ts with
  | nil => simp at h
  | cons t rest => exact ⟨t, rest, rfl, by simpa using h⟩

lemma headIn_of_mem {kinds : List TokenKind} {t : Token} (h : t.kind ∈ kinds)
    (ts : List Token) : headIn kinds (t :: ts) = true := by
  simpa using h

lemma headIn_imp {kinds more : List TokenKind} {ts : List Token}
    (h : headIn kinds ts = true) (hmore : ∀ kind ∈ kinds, kind ∈ more) :
    headIn more ts = true := by
  obtain ⟨t, rest, rfl, ht⟩ := exists_cons_of_headIn h
  exact headIn_of_mem (hmore _ ht) rest

lemma headIn_eq_false {kinds others : List TokenKind} {ts : List Token}
    (h : headIn kinds ts = true) (hnot : ∀ kind ∈ kinds, kind ∉ others) :
    headIn others ts = false := by
  obtain ⟨t, rest, rfl, ht⟩ := exists_cons_of_headIn h
  simpa using hnot _ ht

lemma headIs_eq_false {kinds : List TokenKind} {kind : TokenKind}
    {ts : List Token} (h : headIn kinds ts = true) (hnot : kind ∉ kinds) :
    headIs kind ts = false := by
  obtain ⟨t, rest, rfl, ht⟩ := exists_cons_of_headIn h
  have hk : t.kind ≠ kind := fun hk => hnot (hk ▸ ht)
  simp [hk]

lemma atEnd_eq_false_of_headIn {kinds : List TokenKind} {ts : List Token}
    (h : headIn kinds ts = true) (hnot : .endOfInput ∉ kinds) :
    atEnd ts = false := by
  obtain ⟨t, rest, rfl, ht⟩ := exists_cons_of_headIn h
  exact atEnd_cons_eq_false.mpr fun hk => hnot (hk ▸ ht)

lemma exists_cons_of_headIsWord {words : List String} {ts : List Token}
    (h : headIsWord words ts = true) :
    ∃ t rest, ts = t :: rest ∧ t.kind = .identifier ∧ t.value ∈ words := by
  cases ts with
  | nil => simp at h
  | cons t rest => exact ⟨t, rest, rfl, by simpa using h⟩

lemma nextToken_cons (t : Token) (ts : List Token) :
    nextToken (t :: ts) = t := rfl

/-- The next token of a row that is not empty is its first. -/
lemma head?_eq_nextToken {ts : List Token} (h : ts ≠ []) :
    ts.head? = some (nextToken ts) := by
  cases ts with
  | nil => exact absurd rfl h
  | cons t ts => rfl

/-! ### Passing over one token -/

lemma reaches_tail_of_headIs {kind : TokenKind} {ts : List Token}
    (hk : kind ≠ .endOfInput) (h : headIs kind ts = true) :
    Reaches ts ts.tail := by
  obtain ⟨t, rest, rfl, rfl⟩ := exists_cons_of_headIs h
  exact .pass hk (.refl _)

/-- Two tokens of known kinds, as those that open a block or end a selector
with points, can be passed over. -/
lemma reaches_drop_two {first second : TokenKind} {ts : List Token}
    (hfirst : first ≠ .endOfInput) (hsecond : second ≠ .endOfInput)
    (h : (headIs first ts && kindAt 1 ts = second) = true) :
    Reaches ts (ts.drop 2) := by
  rw [Bool.and_eq_true, decide_eq_true_eq] at h
  obtain ⟨t, rest, rfl, rfl⟩ := exists_cons_of_headIs h.1
  refine .pass hfirst ?_
  cases rest with
  | nil => exact .refl _
  | cons u us =>
      obtain rfl : u.kind = second := h.2
      exact .pass hsecond (.refl _)

lemma reaches_tail_of_headIsWord {words : List String} {ts : List Token}
    (h : headIsWord words ts = true) : Reaches ts ts.tail := by
  obtain ⟨t, rest, rfl, hk, -⟩ := exists_cons_of_headIsWord h
  exact .pass (by simp [hk]) (.refl _)

lemma reaches_step (ts : List Token) : Reaches ts (step ts) := by
  unfold step
  split
  · exact .refl ts
  · rename_i h
    obtain ⟨t, rest, rfl, hk⟩ :=
      exists_cons_of_atEnd_eq_false (Bool.eq_false_iff.mpr h)
    exact .pass hk (.refl _)

/-- What follows a token that is not the end. -/
lemma step_cons {t : Token} {ts : List Token} (h : t.kind ≠ .endOfInput) :
    step (t :: ts) = ts := by
  rw [step, atEnd_cons_eq_false.mpr h]
  rfl

lemma length_step_lt {ts : List Token} (h : atEnd ts = false) :
    (step ts).length < ts.length := by
  obtain ⟨t, rest, rfl, -⟩ := exists_cons_of_atEnd_eq_false h
  simp [step, h]

/-! ### Passing over groups and statements -/

lemma reaches_skipGroup (opener closer : TokenKind) (depth : Nat)
    (ts : List Token) : Reaches ts (skipGroup opener closer depth ts) := by
  fun_induction skipGroup opener closer depth ts with
  | case1 ts => exact .refl _
  | case2 => exact .refl _
  | case3 depth t ts hk => exact .refl _
  | case4 depth t ts hk ih => exact .pass hk ih

/-- Angle brackets that are passed over on a condition: type parameters, and
the arguments of a superclass. -/
lemma reaches_skipAngles (ts : List Token) (p : Bool) :
    Reaches ts (if headIs .openAngle ts && p then
      skipGroup .openAngle .closeAngle 1 ts.tail else ts) := by
  split
  · rename_i h
    rw [Bool.and_eq_true] at h
    exact (reaches_tail_of_headIs (by decide) h.1).trans
      (reaches_skipGroup _ _ _ _)
  · exact .refl _

lemma reaches_skipStatement (ts : List Token) :
    Reaches ts (skipStatement ts) := by
  fun_induction skipStatement ts with
  | case1 => exact .refl _
  | case2 t ts hk => exact .refl _
  | case3 t ts hk hs => exact .pass hk (.refl _)
  | case4 t ts hk hs ih => exact .pass hk ih

lemma reaches_recover (ts : List Token) : Reaches ts (recover ts) := by
  fun_induction recover ts with
  | case1 => exact .refl _
  | case2 t ts hk => exact .refl _
  | case3 t ts hk hs => exact .pass (fun h => hk (.inl h)) (.refl _)
  | case4 t ts hk hs ih => exact .pass (fun h => hk (.inl h)) ih

/-! ### Types -/

lemma reaches_angleTail (depth : Nat) (ts : List Token) :
    Reaches ts (angleTail depth ts).2 := by
  fun_induction angleTail depth ts with
  | case1 ts => exact .refl _
  | case2 => exact .refl _
  | case3 depth t ts hk => exact .refl _
  | case4 depth t ts hk r ih => exact .pass hk ih

lemma reaches_readPiece (t : Token) (ts : List Token) :
    Reaches ts (readPiece t ts).2.1 := by
  unfold readPiece
  split
  · exact reaches_angleTail 1 ts
  · exact .refl _

lemma reaches_anglesHere (ts : List Token) :
    Reaches ts (anglesHere ts).2 := by
  unfold anglesHere
  split
  · split
    · rename_i h
      exact .pass (by simp [h]) (reaches_angleTail 1 _)
    · exact .refl _
  · exact .refl _

lemma reaches_takeKinds (kinds : List TokenKind) (ts : List Token)
    (hk : .endOfInput ∉ kinds) :
    Reaches ts (takeKinds kinds ts).2 := by
  fun_induction takeKinds kinds ts with
  | case1 => exact .refl _
  | case2 t ts ht r ih =>
      refine .pass (fun h => hk ?_) ih
      rw [← h]
      simpa using ht
  | case3 t ts ht => exact .refl _

lemma reaches_typeWords (ts : List Token) :
    Reaches ts (typeWords ts).2 := by
  fun_induction typeWords ts with
  | case1 => exact .refl _
  | case2 t rest ht g hn =>
      exact .pass (by rcases ht with h | h <;> simp [h])
        (reaches_anglesHere rest)
  | case3 t rest ht g hn r ih =>
      exact .pass (by rcases ht with h | h <;> simp [h])
        ((reaches_anglesHere rest).trans ih)
  | case4 t rest ht => exact .refl _

lemma reaches_pointerMarks (prev : Option String) (ts : List Token) :
    Reaches ts (pointerMarks prev ts).2 := by
  fun_induction pointerMarks prev ts with
  | case1 => exact .refl _
  | case2 prev t ts ht r ih =>
      exact .pass (by rcases ht with h | ⟨h, -⟩ <;> simp [h]) ih
  | case3 prev t ts ht => exact .refl _

lemma reaches_typePieces (ts : List Token) :
    Reaches ts (typePieces ts).2 := by
  have hk := reaches_takeKinds typeKeywords ts (by decide)
  have hw := reaches_typeWords (takeKinds typeKeywords ts).2
  have hp := reaches_pointerMarks ((takeKinds typeKeywords ts).1
    ++ (typeWords (takeKinds typeKeywords ts).2).1).getLast?
    (typeWords (takeKinds typeKeywords ts).2).2
  refine (hk.trans hw).trans (hp.trans ?_)
  unfold typePieces
  simp only
  split
  · rename_i h
    exact reaches_tail_of_headIsWord h
  · exact .refl _

lemma reaches_typeText (ts : List Token) : Reaches ts (typeText ts).2 :=
  reaches_typePieces ts

lemma reaches_piecesInParens (depth : Nat) (ts : List Token) :
    Reaches ts (piecesInParens depth ts).2 := by
  fun_induction piecesInParens depth ts with
  | case1 => exact .refl _
  | case2 depth t rest ht => exact .refl _
  | case3 depth t rest ht piece r ih =>
      exact .pass (fun h => ht (.inl h))
        ((reaches_readPiece t rest).trans ih)

lemma reaches_typeInParens (ts : List Token) :
    Reaches ts (typeInParens ts).2 :=
  reaches_piecesInParens 0 ts

lemma reaches_parameterText (ts : List Token) :
    Reaches ts (parameterText ts).2 :=
  (reaches_piecesInParens 0 ts).trans (reaches_step _)

/-! ### Names and values -/

lemma reaches_identifierList (stop : TokenKind) (ts : List Token) :
    Reaches ts (identifierList stop ts).2 := by
  fun_induction identifierList stop ts with
  | case1 => exact .refl _
  | case2 t ts hs => exact .refl _
  | case3 t ts hs hk ih =>
      exact .pass (by rcases hk with h | h <;> simp [h]) ih
  | case4 t ts hs hk hi r ih => exact .pass (by simp [hi]) ih
  | case5 t ts hs hk hi => exact .refl _

lemma reaches_valuesUntil (stops : List TokenKind) (ts : List Token) :
    Reaches ts (valuesUntil stops ts).2 := by
  fun_induction valuesUntil stops ts with
  | case1 => exact .refl _
  | case2 t ts hk => exact .refl _
  | case3 t ts hk r ih => exact .pass (fun h => hk (.inl h)) ih

lemma reaches_trailingMacros (ts : List Token) :
    Reaches ts (trailingMacros ts).2 := by
  fun_induction trailingMacros ts with
  | case1 => exact .refl _
  | case2 t ts hk r ih => exact .pass (by simp [hk.1]) ih
  | case3 t ts hk => exact .refl _

lemma reaches_expressionTokens (stops : List TokenKind) (depth : Int)
    (ts : List Token) : Reaches ts (expressionTokens stops depth ts).2 := by
  fun_induction expressionTokens stops depth ts with
  | case1 => exact .refl _
  | case2 depth t ts hk => exact .refl _
  | case3 depth t ts hk hd ih => exact .pass (fun h => hk (.inl h)) ih
  | case4 depth t ts hk hd r ih => exact .pass (fun h => hk (.inl h)) ih

lemma reaches_toNextCase (ts : List Token) :
    Reaches ts (toNextCase ts) := by
  fun_induction toNextCase ts with
  | case1 => exact .refl _
  | case2 t ts hk => exact .refl _
  | case3 t ts hk ih => exact .pass (fun h => hk (.inl h)) ih

lemma reaches_skipAnnotations (ts : List Token) :
    Reaches ts (skipAnnotations ts) := by
  fun_induction skipAnnotations ts with
  | case1 => exact .refl _
  | case2 t ts hk ih => exact .pass (by simp [hk.1]) ih
  | case3 t ts hk => exact .refl _

lemma reaches_announcedNames (behindComma : Bool) (ts : List Token) :
    Reaches ts (announcedNames behindComma ts).2 := by
  fun_induction announcedNames behindComma ts with
  | case1 => exact .refl _
  | case2 b t ts hk ih => exact .pass (by simp [hk]) ih
  | case3 b t ts hk hi r ih => exact .pass (by simp [hi.2]) ih
  | case4 b t ts hk hi => exact .refl _

lemma reaches_forwardClasses (depth : Nat) (ts : List Token) :
    Reaches ts (forwardClasses depth ts).2 := by
  fun_induction forwardClasses depth ts with
  | case1 => exact .refl _
  | case2 t ts hk r ih => exact .pass (by simp [hk]) ih
  | case3 t ts hk ha ih => exact .pass (by simp [ha]) ih
  | case4 t ts hk ha hc ih => exact .pass (by simp [hc]) ih
  | case5 t ts hk ha hc hs => exact .pass (by simp [hs]) (.refl _)
  | case6 t ts hk ha hc hs => exact .refl _
  | case7 depth t ts hk => exact .refl _
  | case8 depth t ts hk ih => exact .pass hk ih

/-! ### Functions -/

lemma reaches_parameterTokens (depth : Nat) (ts : List Token) :
    Reaches ts (parameterTokens depth ts).2 := by
  fun_induction parameterTokens depth ts with
  | case1 => exact .refl _
  | case2 depth t ts hk => exact .refl _
  | case3 depth t ts hk r ih => exact .pass (fun h => hk (.inl h)) ih

lemma reaches_piecesUntil (stop : List Token → Bool) (ts : List Token) :
    Reaches ts (piecesUntil stop ts).2 := by
  fun_induction piecesUntil stop ts with
  | case1 => exact .refl _
  | case2 t rest hk => exact .refl _
  | case3 t rest hk piece r ih =>
      exact .pass (fun h => hk (.inl h))
        ((reaches_readPiece t rest).trans ih)

lemma reaches_functionMarks (ts : List Token) :
    Reaches ts (functionMarks ts).2 := by
  fun_induction functionMarks ts with
  | case1 => exact .refl _
  | case2 t ts hk own hs =>
      refine .pass (fun h => ?_) (reaches_tail_of_headIs (by decide) hs)
      rw [h] at hk
      exact absurd hk (by decide)
  | case3 t ts hk own hs r ih =>
      refine .pass (fun h => ?_) ih
      rw [h] at hk
      exact absurd hk (by decide)
  | case4 t ts hk => exact .refl _

end HeaderBinding
