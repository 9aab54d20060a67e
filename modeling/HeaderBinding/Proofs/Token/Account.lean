/-
The tokens of a text account for all of it.

* `slice`: the stretch of a text between two offsets; `Token.At`: the line
  and the column of an offset;
* `Gap`: stretches without a token, one behind the other;
* `Accounted`: from an offset on, each token is at the offset where its
  stretch begins and stands for that stretch, and only gaps are between;
* `EndsOnce`: the last token is the end of the input, and no other is;
* `tokenize_accounted`: the tokens of any text, under any rules.
-/
import Mathlib.Data.List.Induction
import HeaderBinding.Proofs.Token.Spelling
import HeaderBinding.Token.Stream

namespace HeaderBinding

/-! ### Offsets -/

/-- The stretch of a text from one offset to another. -/
def slice (cs : List Char) (s e : Nat) : List Char :=
  (cs.take e).drop s

lemma slice_self (cs : List Char) (k : Nat) : slice cs k k = [] :=
  List.drop_eq_nil_of_le (List.length_take_le k cs)

lemma slice_length (cs : List Char) (k : Nat) :
    slice cs k cs.length = cs.drop k := by
  rw [slice, List.take_length]

/-- A stretch and what follows it. -/
lemma slice_append_drop (cs : List Char) {k m : Nat} (h : k ≤ m) :
    slice cs k m ++ cs.drop m = cs.drop k := by
  rw [slice, List.drop_take]
  conv_lhs => rw [← Nat.add_sub_cancel' h, ← List.drop_drop]
  rw [Nat.add_sub_cancel_left, List.take_append_drop]

/-- A stretch in two parts. -/
lemma slice_append_slice (cs : List Char) {k m s : Nat} (hkm : k ≤ m)
    (hms : m ≤ s) : slice cs k m ++ slice cs m s = slice cs k s := by
  have h := slice_append_drop (cs.take s) hkm
  rwa [slice, List.take_take, Nat.min_eq_left hms] at h

lemma slice_append_append (before span rest : List Char) :
    slice (before ++ (span ++ rest)) before.length
      (before ++ span).length = span := by
  rw [slice, ← List.append_assoc, List.take_left, List.drop_left]

/-- A token is at an offset: its line is one more than the line breaks
before it, and its column one more than the characters between it and the
last of them. -/
structure Token.At (t : Token) (cs : List Char) (s : Nat) : Prop where
  line : t.line = 1 + (cs.take s).count '\n'
  column : t.column
    = 1 + ((cs.take s).reverse.takeWhile (· ≠ '\n')).length

/-- The place behind some text counts its line breaks, and the characters
behind the last one. -/
lemma after_start (cs : List Char) :
    Position.after {} cs = ⟨1 + cs.count '\n',
      1 + (cs.reverse.takeWhile (· ≠ '\n')).length⟩ := by
  induction cs using List.reverseRecOn with
  | nil => rfl
  | append_singleton cs c ih =>
      rw [Position.after_append, ih]
      show Position.next _ c = _
      by_cases hc : c = '\n'
      · simp [Position.next, hc]
        omega
      · simp [Position.next, hc]
        omega

/-! ### Gaps and tokens -/

/-- Stretches without a token up to what follows the gap. -/
inductive Gap (rules : MacroRules)
    (group : List Char → List Char → Prop) : List Char → List Char → Prop
  | nil (rest : List Char) : Gap rules group [] rest
  | cons {span more rest : List Char}
      (h : Filler rules group span (more ++ rest))
      (hr : Gap rules group more rest) : Gap rules group (span ++ more) rest

/-- From the offset `k` on, the tokens account for the text `cs`: a gap,
then the stretch of the next token, and so on; and behind the last gap the
end. -/
inductive Accounted (rules : MacroRules)
    (group : List Char → List Char → Prop) (cs : List Char) :
    Nat → List Token → Prop
  | last {k : Nat} {t : Token} (hk : k ≤ cs.length)
      (hgap : Gap rules group (slice cs k cs.length) [])
      (hat : t.At cs cs.length) (hkind : t.kind = .endOfInput)
      (hvalue : t.value = "") : Accounted rules group cs k [t]
  | token {k s e : Nat} {t : Token} {ts : List Token} (hks : k ≤ s)
      (hse : s < e) (he : e ≤ cs.length)
      (hgap : Gap rules group (slice cs k s) (cs.drop s)) (hat : t.At cs s)
      (hspell : Spells t.kind t.value (slice cs s e) (cs.drop e))
      (hr : Accounted rules group cs e ts) :
      Accounted rules group cs k (t :: ts)

variable {rules : MacroRules} {group : List Char → List Char → Prop}

/-- A stretch without a token in front of what is accounted for. -/
lemma Accounted.of_filler {cs : List Char} {k m : Nat} {ts : List Token}
    (hkm : k ≤ m) (h : Filler rules group (slice cs k m) (cs.drop m))
    (hr : Accounted rules group cs m ts) : Accounted rules group cs k ts := by
  cases hr with
  | last hm hgap hat hkind hvalue =>
      refine .last (Nat.le_trans hkm hm) ?_ hat hkind hvalue
      rw [← slice_append_slice cs hkm hm]
      refine .cons ?_ hgap
      rwa [List.append_nil, slice_length]
  | token hms hse he hgap hat hspell hr =>
      refine .token (Nat.le_trans hkm hms) hse he ?_ hat hspell hr
      rw [← slice_append_slice cs hkm hms]
      refine .cons ?_ hgap
      rwa [slice_append_drop cs hms]

/-- The tokens that are made of the rest of a text account for it. -/
lemma accounted_placeTokens (rules : MacroRules) (before cs : List Char) :
    Accounted rules GroupToEnd (before ++ cs) before.length
      (placeTokens (Position.after {} before) (lexemes rules cs)) := by
  fun_induction lexemes rules cs generalizing before with
  | case1 =>
      rw [List.append_nil, placeTokens, endToken, after_start]
      refine .last (Nat.le_refl _) ?_ ⟨?_, ?_⟩ rfl rfl
      · rw [slice_self]
        exact .nil []
      · rw [List.take_length]
      · rw [List.take_length]
  | case2 c cs ih =>
      have happ := readLexeme_append rules c cs
      have hne := List.length_pos_iff.mpr (readLexeme_raw_ne_nil rules c cs)
      have hright := right_readLexeme rules c cs
      generalize readLexeme rules c cs = r at happ hne hright ih
      rw [← happ]
      have hrest := ih (before ++ r.1.raw)
      have hlen : (before ++ r.1.raw).length
          = before.length + r.1.raw.length := List.length_append
      have hdrop : (before ++ (r.1.raw ++ r.2)).drop
          (before ++ r.1.raw).length = r.2 := by
        rw [← List.append_assoc, List.drop_left]
      rw [List.append_assoc, Position.after_append] at hrest
      cases htoken : r.1.token? with
      | some face =>
          rw [Lexeme.Right, htoken] at hright
          rw [placeTokens, Lexeme.placed, htoken]
          refine .token (Nat.le_refl _) (e := (before ++ r.1.raw).length)
            (by omega) ?_ ?_ ⟨?_, ?_⟩ ?_ hrest
          · rw [← List.append_assoc]
            exact (List.prefix_append _ r.2).length_le
          · rw [slice_self]
            exact .nil _
          · rw [after_start, List.take_left]
          · rw [after_start, List.take_left]
          · rw [slice_append_append, hdrop]
            exact hright
      | none =>
          rw [Lexeme.Right, htoken] at hright
          rw [placeTokens, Lexeme.placed, htoken, List.nil_append]
          refine .of_filler (m := (before ++ r.1.raw).length) (by omega) ?_
            hrest
          rw [slice_append_append, hdrop]
          exact hright

/-! ### Rows that end once -/

/-- The last token is the end of the input, and no token before it is. -/
inductive EndsOnce : List Token → Prop
  | last {e : Token} (h : e.kind = .endOfInput) : EndsOnce [e]
  | cons {t : Token} {ts : List Token} (h : t.kind ≠ .endOfInput)
      (hr : EndsOnce ts) : EndsOnce (t :: ts)

/-- The row in two parts: the tokens before the end, and the end. -/
lemma EndsOnce.exists_append {ts : List Token} (h : EndsOnce ts) :
    ∃ us e, ts = us ++ [e] ∧ e.kind = .endOfInput
      ∧ ∀ u ∈ us, u.kind ≠ .endOfInput := by
  induction h with
  | @last e h => exact ⟨[], e, rfl, h, fun _ hu => nomatch hu⟩
  | @cons t ts h _ ih =>
      obtain ⟨us, e, rfl, he, hall⟩ := ih
      exact ⟨t :: us, e, rfl, he, List.forall_mem_cons.mpr ⟨h, hall⟩⟩

/-- No stretch of text is spelled as the end. -/
lemma Spells.ne_endOfInput {kind : TokenKind} {value : String}
    {span rest : List Char} (h : Spells kind value span rest) :
    kind ≠ .endOfInput := by
  cases h with
  | plain h =>
      rintro rfl
      exact h (by decide)
  | string => decide
  | char => decide
  | directive => decide

lemma Accounted.endsOnce {cs : List Char} {k : Nat} {ts : List Token}
    (h : Accounted rules group cs k ts) : EndsOnce ts := by
  induction h with
  | last _ _ _ hkind _ => exact .last hkind
  | token _ _ _ _ _ hspell _ ih => exact .cons hspell.ne_endOfInput ih

lemma endsOnce_tokenize (rules : MacroRules) (text : String) :
    EndsOnce (tokenize rules text) :=
  (accounted_placeTokens rules [] text.toList).endsOnce

/-! ### Any text -/

/-- The tokens of a text end in the only token for its end, and account
for the whole text.  A comment or a group that is never closed goes to the
end of the text. -/
theorem tokenize_accounted (rules : MacroRules) (text : String) :
    (∃ ts e, tokenize rules text = ts ++ [e] ∧ e.kind = .endOfInput
        ∧ ∀ t ∈ ts, t.kind ≠ .endOfInput)
      ∧ Accounted rules GroupToEnd text.toList 0 (tokenize rules text) :=
  ⟨(endsOnce_tokenize rules text).exists_append,
    accounted_placeTokens rules [] text.toList⟩

/-- Where groups have to be closed, a stretch without a token opens no
parenthesis that it does not close. -/
lemma Filler.openParen_not_mem {span rest : List Char}
    (h : Filler rules (fun group _ => Group group) span rest)
    (hslash : '/' ∉ span) (hclose : ')' ∉ span) : '(' ∉ span := by
  cases h with
  | blanks h => exact fun hmem => absurd (h _ hmem) (by decide)
  | lineComment => exact absurd List.mem_cons_self hslash
  | blockComment => exact absurd List.mem_cons_self hslash
  | openComment => exact absurd List.mem_cons_self hslash
  | word hw _ => exact fun hmem => absurd (hw.2.1 _ hmem) (by decide)
  | @call word blanks args _ _ _ _ hg =>
      obtain ⟨hhead, hcount, -⟩ := hg
      have hopen : '(' ∈ args := List.mem_of_mem_head? hhead
      have hmem : ')' ∈ args := by
        rw [← List.count_pos_iff, ← hcount]
        exact List.count_pos_iff.mpr hopen
      exact absurd (List.mem_append_right _ (List.mem_append_right _ hmem))
        hclose

lemma Gap.openParen_not_mem {span rest : List Char}
    (h : Gap rules (fun group _ => Group group) span rest)
    (hslash : '/' ∉ span) (hclose : ')' ∉ span) : '(' ∉ span := by
  induction h with
  | nil => exact List.not_mem_nil
  | cons h _ ih =>
      rw [List.mem_append, not_or] at hslash hclose ⊢
      exact ⟨h.openParen_not_mem hslash.1 hclose.1,
        ih hslash.2 hclose.2⟩

/-- Behind a vendor macro a parenthesis that is never closed makes no
token, though no group ends there. -/
theorem not_accounted_open_group :
    ¬ Accounted {} (fun group _ => Group group) "A_B(".toList 0
      (tokenize {} "A_B(") := by
  have htokens : tokenize {} "A_B(" = [⟨.endOfInput, "", 1, 5⟩] := by
    decide +kernel
  rw [htokens]
  intro h
  cases h with
  | last _ hgap _ _ _ =>
      exact hgap.openParen_not_mem (by decide) (by decide) (by decide)
  | token _ _ _ _ _ _ hr => exact nomatch hr

end HeaderBinding
