/-
Brackets in a row of tokens.

* `dueBehind`: the closing brackets that are due behind a token;
  `isNested`: the tokens close the brackets that they open, and those that
  were due before, each where it is due;
* `commasInside`, `freeCommas`: whether all commas stand inside brackets
  of some kinds, and how many stand inside none of one kind;
* `commasInside_concat`: no comma ends nested tokens;
* `count_dueBehind`: a reader that counts the brackets of one kind counts
  those that are due;
* `angleTail_append`, `parameterTokens_append`: so it reads nested tokens
  up to the bracket or the comma behind them;
* `exists_parameterTokens`: or up to the first comma that is inside no
  parenthesis;
* `isNested_append`, `freeCommas_append`: nested tokens behind each other;
* `exists_of_isNested_append`: nested tokens are parted by the bracket that
  closes what is due;
* `AngleGroup`: a group in angle brackets, which is read as one piece.
-/
import HeaderBinding.Header.Callable
import HeaderBinding.Proofs.Cursor.Alike

namespace HeaderBinding

/-! ### Nesting -/

/-- Kinds of opening brackets, each with the kind that closes it. -/
abbrev Brackets := List (TokenKind × TokenKind)

/-- Parentheses, square brackets and angle brackets. -/
def plainBrackets : Brackets :=
  [(.openParen, .closeParen), (.openBracket, .closeBracket),
    (.openAngle, .closeAngle)]

/-- Angle brackets alone. -/
def angleBrackets : Brackets :=
  [(.openAngle, .closeAngle)]

/-- Parentheses alone. -/
def parentheses : Brackets :=
  [(.openParen, .closeParen)]

/-- The kinds that close brackets. -/
def Brackets.closers (bs : Brackets) : List TokenKind :=
  bs.map (·.2)

/-- The closing brackets that are due behind a token, the next one
first. -/
def dueBehind (bs : Brackets) (due : List TokenKind) (t : Token) :
    List TokenKind :=
  match bs.lookup t.kind with
  | some closer => closer :: due
  | none => if bs.closers.contains t.kind then due.tail else due

/-- A token may come next: it is not the end, and closes no bracket but
the one that is due. -/
def fits (bs : Brackets) (due : List TokenKind) (t : Token) : Bool :=
  t.kind ≠ .endOfInput
    && (!bs.closers.contains t.kind || due.head? = some t.kind)

/-- The tokens close what is due and what they open. -/
def isNested (bs : Brackets) : List TokenKind → List Token → Bool
  | due, [] => due.isEmpty
  | due, t :: ts => fits bs due t && isNested bs (dueBehind bs due t) ts

/-- Every comma stands inside a bracket that one of the kinds closes. -/
def commasInside (bs : Brackets) (closers : List TokenKind) :
    List TokenKind → List Token → Bool
  | _, [] => true
  | due, t :: ts =>
    (t.kind ≠ .comma || due.any closers.contains)
      && commasInside bs closers (dueBehind bs due t) ts

/-- The number of commas inside no bracket of the kind. -/
def freeCommas (bs : Brackets) (closer : TokenKind) :
    List TokenKind → List Token → Nat
  | _, [] => 0
  | due, t :: ts =>
    (if t.kind = .comma ∧ closer ∉ due then 1 else 0)
      + freeCommas bs closer (dueBehind bs due t) ts

lemma commasInside_iff {bs : Brackets} {closer : TokenKind}
    {due : List TokenKind} {ts : List Token} :
    commasInside bs [closer] due ts = true
      ↔ freeCommas bs closer due ts = 0 := by
  induction ts generalizing due with
  | nil => exact iff_of_true rfl rfl
  | cons t ts ih =>
      rw [commasInside, freeCommas, Bool.and_eq_true, ih,
        Nat.add_eq_zero_iff]
      refine and_congr_left fun _ => ?_
      by_cases hk : t.kind = .comma <;> by_cases hd : closer ∈ due <;>
        simp [hk, hd]

/-- Behind a comma the same brackets are due as before. -/
lemma dueBehind_comma (due : List TokenKind) {c : Token}
    (hc : c.kind = .comma) : dueBehind plainBrackets due c = due := by
  rw [dueBehind, hc]
  rfl

/-- A comma that ends nested tokens stands inside no bracket. -/
lemma commasInside_concat {closers due : List TokenKind} {ts : List Token}
    {c : Token} (hc : c.kind = .comma)
    (h : isNested plainBrackets due (ts ++ [c]) = true) :
    commasInside plainBrackets closers due (ts ++ [c]) = false := by
  induction ts generalizing due with
  | nil =>
      rw [List.nil_append, isNested, Bool.and_eq_true, dueBehind_comma due hc]
        at h
      obtain rfl : due = [] := List.isEmpty_iff.mp h.2
      simp [commasInside, hc]
  | cons t ts ih =>
      rw [List.cons_append, isNested, Bool.and_eq_true] at h
      rw [List.cons_append, commasInside, ih h.2, Bool.and_false]

/-! ### Counting brackets -/

/-- The kinds are a pair among the brackets, and closer and opener of no
other. -/
structure Brackets.Pair (bs : Brackets) (opener closer : TokenKind) :
    Prop where
  mem : (opener, closer) ∈ bs
  own : ∀ p ∈ bs, p.2 = closer ↔ p.1 = opener
  apart : ∀ p ∈ bs, p.1 ≠ closer

lemma pair_plain_paren : plainBrackets.Pair .openParen .closeParen :=
  ⟨by decide, by decide, by decide⟩

lemma pair_paren : parentheses.Pair .openParen .closeParen :=
  ⟨by decide, by decide, by decide⟩

lemma pair_angle : angleBrackets.Pair .openAngle .closeAngle :=
  ⟨by decide, by decide, by decide⟩

section Pair

variable {bs : Brackets} {opener closer : TokenKind}
  {due : List TokenKind} {t : Token}

lemma ne_end_of_fits (h : fits bs due t = true) :
    t.kind ≠ .endOfInput := by
  rw [fits, Bool.and_eq_true] at h
  simpa using h.1

/-- A bracket that closes is the one that is due. -/
lemma exists_due_of_fits (h : fits bs due t = true)
    (hc : t.kind ∈ bs.closers) : ∃ rest, due = t.kind :: rest := by
  rw [fits, Bool.and_eq_true, List.contains_iff_mem.mpr hc, Bool.not_true,
    Bool.false_or] at h
  exact List.head?_eq_some_iff.mp (of_decide_eq_true h.2)

lemma Brackets.Pair.closer_mem (hp : bs.Pair opener closer) :
    closer ∈ bs.closers :=
  List.mem_map.mpr ⟨_, hp.mem, rfl⟩

/-- The bracket is due somewhere if it may close. -/
lemma Brackets.Pair.count_pos (hp : bs.Pair opener closer)
    (h : fits bs due t = true) (hk : t.kind = closer) :
    0 < due.count closer := by
  obtain ⟨rest, rfl⟩ := exists_due_of_fits h (hk ▸ hp.closer_mem)
  rw [hk]
  simp

/-- Behind a token one bracket more is due if it opens, one less if it
closes, and as many as before otherwise. -/
theorem Brackets.Pair.count_dueBehind (hp : bs.Pair opener closer)
    (h : fits bs due t = true) :
    (dueBehind bs due t).count closer
      = if t.kind = opener then due.count closer + 1
        else if t.kind = closer then due.count closer - 1
        else due.count closer := by
  rw [dueBehind]
  cases hl : bs.lookup t.kind with
  | some c =>
      obtain ⟨before, behind, heq, -⟩ := List.lookup_eq_some_iff.mp hl
      have hmem : (t.kind, c) ∈ bs := by simp [heq]
      have hown : c = closer ↔ t.kind = opener := hp.own _ hmem
      have hapart : t.kind ≠ closer := hp.apart _ hmem
      by_cases ho : t.kind = opener
      · rw [if_pos ho, hown.mpr ho]
        exact List.count_cons_self
      · rw [if_neg ho, if_neg hapart]
        exact List.count_cons_of_ne (mt hown.mp ho)
  | none =>
      have ho : t.kind ≠ opener := by
        rintro rfl
        have := List.lookup_eq_none_iff.mp hl _ hp.mem
        simp at this
      rw [if_neg ho]
      simp only
      split
      · rename_i hc
        obtain ⟨rest, rfl⟩ :=
          exists_due_of_fits h (List.contains_iff_mem.mp hc)
        by_cases hk : t.kind = closer
        · rw [if_pos hk, hk]
          simp
        · rw [if_neg hk, List.tail_cons, List.count_cons_of_ne hk]
      · rename_i hc
        rw [if_neg]
        rintro rfl
        exact hc (List.contains_iff_mem.mpr hp.closer_mem)

/-- A group in angle brackets is read up to the bracket behind nested
tokens. -/
theorem angleTail_append (hp : bs.Pair .openAngle .closeAngle)
    {inner : List Token} (h : isNested bs due inner = true) {c : Token}
    (hc : c.kind = .closeAngle) (rest : List Token) :
    angleTail (due.count .closeAngle + 1) (inner ++ c :: rest)
      = (inner.map (·.value) ++ [c.value], rest) := by
  induction inner generalizing due with
  | nil =>
      obtain rfl : due = [] := List.isEmpty_iff.mp h
      simp [angleTail, hc]
  | cons t inner ih =>
      rw [isNested, Bool.and_eq_true] at h
      have hstep := ih h.2
      have hdepth : (if t.kind = .openAngle then due.count .closeAngle + 2
          else if t.kind = .closeAngle then due.count .closeAngle
          else due.count .closeAngle + 1)
            = (dueBehind bs due t).count .closeAngle + 1 := by
        rw [hp.count_dueBehind h.1]
        split
        · rfl
        split
        · rename_i hk
          have := hp.count_pos h.1 hk
          omega
        · rfl
      rw [List.cons_append, angleTail, if_neg (ne_end_of_fits h.1), hdepth,
        hstep]
      rfl

/-! ### Parameters -/

/-- Nested tokens without a free comma are read up to what ends a
parameter. -/
theorem parameterTokens_append (hp : bs.Pair .openParen .closeParen)
    {ts : List Token} (h : isNested bs due ts = true)
    (hcommas : freeCommas bs .closeParen due ts = 0) {rest : List Token}
    (hrest : headIn [.comma, .closeParen] rest = true) :
    parameterTokens (due.count .closeParen) (ts ++ rest) = (ts, rest) := by
  induction ts generalizing due with
  | nil =>
      obtain rfl : due = [] := List.isEmpty_iff.mp h
      cases rest with
      | nil => cases hrest
      | cons r rest =>
          have hr : r.kind = .comma ∨ r.kind = .closeParen := by
            simpa using hrest
          rw [List.nil_append, parameterTokens, if_pos (.inr ⟨rfl, hr⟩)]
  | cons t ts ih =>
      rw [isNested, Bool.and_eq_true] at h
      rw [freeCommas, Nat.add_eq_zero_iff] at hcommas
      have hgo : ¬ (t.kind = .endOfInput ∨ due.count .closeParen = 0
          ∧ (t.kind = .comma ∨ t.kind = .closeParen)) := by
        rintro (hend | ⟨hzero, hk | hk⟩)
        · exact ne_end_of_fits h.1 hend
        · have hfree := hcommas.1
          rw [if_pos ⟨hk, List.count_eq_zero.mp hzero⟩] at hfree
          cases hfree
        · exact absurd (hp.count_pos h.1 hk) (by omega)
      rw [List.cons_append, parameterTokens, if_neg hgo,
        ← hp.count_dueBehind h.1, ih h.2 hcommas.2]

/-- The first free comma ends a parameter. -/
theorem exists_parameterTokens (hp : bs.Pair .openParen .closeParen)
    {ts : List Token} (h : isNested bs due ts = true)
    (hcommas : freeCommas bs .closeParen due ts ≠ 0) (rest : List Token) :
    ∃ before c behind due', ts = before ++ c :: behind ∧ c.kind = .comma
      ∧ .closeParen ∉ due' ∧ isNested bs due' behind = true
      ∧ freeCommas bs .closeParen due ts
        = freeCommas bs .closeParen due' behind + 1
      ∧ parameterTokens (due.count .closeParen) (ts ++ rest)
        = (before, c :: (behind ++ rest)) := by
  induction ts generalizing due with
  | nil => exact absurd rfl hcommas
  | cons t ts ih =>
      rw [isNested, Bool.and_eq_true] at h
      by_cases hfree : t.kind = .comma ∧ .closeParen ∉ due
      · have hcount : (dueBehind bs due t).count .closeParen = 0 := by
          rw [hp.count_dueBehind h.1, hfree.1]
          simpa using List.count_eq_zero.mpr hfree.2
        refine ⟨[], t, ts, dueBehind bs due t, rfl, hfree.1,
          List.count_eq_zero.mp hcount, h.2, ?_, ?_⟩
        · rw [freeCommas, if_pos hfree, Nat.add_comm]
        · rw [List.cons_append, parameterTokens, if_pos (.inr
            ⟨List.count_eq_zero.mpr hfree.2, .inl hfree.1⟩)]
      · rw [freeCommas, if_neg hfree, Nat.zero_add] at hcommas
        obtain ⟨before, c, behind, due', rfl, hc, hdue, hnested, hcount,
          hread⟩ := ih h.2 hcommas
        refine ⟨t :: before, c, behind, due', rfl, hc, hdue, hnested, ?_, ?_⟩
        · rw [freeCommas, if_neg hfree, Nat.zero_add, hcount]
        · have hgo : ¬ (t.kind = .endOfInput ∨ due.count .closeParen = 0
              ∧ (t.kind = .comma ∨ t.kind = .closeParen)) := by
            rintro (hend | ⟨hzero, hk | hk⟩)
            · exact ne_end_of_fits h.1 hend
            · exact hfree ⟨hk, List.count_eq_zero.mp hzero⟩
            · exact absurd (hp.count_pos h.1 hk) (by omega)
          rw [List.cons_append, parameterTokens, if_neg hgo,
            ← hp.count_dueBehind h.1, hread]

end Pair

/-! ### Rows -/

section Rows

variable {bs : Brackets}

lemma dueBehind_append {due more : List TokenKind} {t : Token}
    (h : fits bs due t = true) :
    dueBehind bs (due ++ more) t = dueBehind bs due t ++ more := by
  rw [dueBehind, dueBehind]
  cases bs.lookup t.kind with
  | some c => rfl
  | none =>
      simp only
      split
      · rename_i hc
        obtain ⟨rest, rfl⟩ :=
          exists_due_of_fits h (List.contains_iff_mem.mp hc)
        rfl
      · rfl

lemma fits_append {due : List TokenKind} {t : Token}
    (h : fits bs due t = true) (more : List TokenKind) :
    fits bs (due ++ more) t = true := by
  have hend := ne_end_of_fits h
  rw [fits, Bool.and_eq_true]
  refine ⟨by simpa using hend, ?_⟩
  by_cases hc : t.kind ∈ bs.closers
  · obtain ⟨rest, rfl⟩ := exists_due_of_fits h hc
    simp
  · simp [hc]

/-- Behind tokens that close what they open, others go on with what was
due. -/
theorem isNested_append {due : List TokenKind} {as : List Token}
    (h : isNested bs due as = true) (more : List TokenKind)
    (cs : List Token) :
    isNested bs (due ++ more) (as ++ cs) = isNested bs more cs := by
  induction as generalizing due with
  | nil =>
      obtain rfl : due = [] := List.isEmpty_iff.mp h
      rfl
  | cons t as ih =>
      rw [isNested, Bool.and_eq_true] at h
      rw [List.cons_append, isNested, dueBehind_append h.1,
        fits_append h.1, Bool.true_and, ih h.2]

/-- The free commas of tokens behind each other. -/
theorem freeCommas_append {closer : TokenKind} {due more : List TokenKind}
    {as : List Token} (h : isNested bs due as = true)
    (hmore : closer ∉ more) (cs : List Token) :
    freeCommas bs closer (due ++ more) (as ++ cs)
      = freeCommas bs closer due as + freeCommas bs closer more cs := by
  induction as generalizing due with
  | nil =>
      obtain rfl : due = [] := List.isEmpty_iff.mp h
      simp [freeCommas]
  | cons t as ih =>
      rw [isNested, Bool.and_eq_true] at h
      rw [List.cons_append, freeCommas, dueBehind_append h.1, ih h.2,
        freeCommas, Nat.add_assoc]
      simp [hmore]

/-- An end part of nested tokens closes what is due there. -/
lemma exists_isNested_of_suffix {due : List TokenKind} {as cs : List Token}
    (h : isNested bs due as = true) (hs : cs <:+ as) :
    ∃ due', isNested bs due' cs = true := by
  obtain ⟨front, rfl⟩ := hs
  induction front generalizing due with
  | nil => exact ⟨due, h⟩
  | cons t front ih =>
      rw [List.cons_append, isNested, Bool.and_eq_true] at h
      exact ih h.2

/-- A token that closes what is due in front of something else fits there
alone, unless it is that which it closes. -/
lemma fits_of_fits_append {due more : List TokenKind} {closer : TokenKind}
    {t : Token} (h : fits bs (due ++ closer :: more) t = true)
    (hne : due = [] → t.kind ≠ closer) : fits bs due t = true := by
  rw [fits, Bool.and_eq_true, Bool.or_eq_true, decide_eq_true_eq] at h ⊢
  refine ⟨h.1, h.2.imp_right fun hhead => ?_⟩
  cases due with
  | nil =>
      have hk := Option.some.inj (of_decide_eq_true hhead)
      exact absurd hk.symm (hne rfl)
  | cons k due => exact hhead

/-- Nested tokens are parted by the bracket that closes what is due. -/
theorem exists_of_isNested_append {due more : List TokenKind}
    {closer : TokenKind} (hc : closer ∈ bs.closers)
    (ho : bs.lookup closer = none) {ts : List Token}
    (h : isNested bs (due ++ closer :: more) ts = true) :
    ∃ inner c rest, ts = inner ++ c :: rest ∧ c.kind = closer
      ∧ isNested bs due inner = true ∧ isNested bs more rest = true := by
  induction ts generalizing due with
  | nil => cases due <;> cases h
  | cons t ts ih =>
      rw [isNested, Bool.and_eq_true] at h
      by_cases hclose : due = [] ∧ t.kind = closer
      · obtain ⟨rfl, rfl⟩ := hclose
        rw [List.nil_append, dueBehind, ho] at h
        simp only [List.contains_iff_mem.mpr hc, if_true, List.tail_cons] at h
        exact ⟨[], t, ts, rfl, rfl, rfl, h.2⟩
      · have hfits := fits_of_fits_append h.1 fun hnil hk => hclose ⟨hnil, hk⟩
        rw [dueBehind_append hfits] at h
        obtain ⟨inner, c, rest, rfl, hk, hinner, hrest⟩ := ih h.2
        refine ⟨t :: inner, c, rest, rfl, hk, ?_, hrest⟩
        rw [isNested, hfits, hinner, Bool.and_true]

/-- A bracket that opens has its group, and the rest goes on with what was
due before. -/
lemma exists_group_of_isNested {due : List TokenKind} {t : Token}
    (closer : TokenKind) (ht : bs.lookup t.kind = some closer)
    (hc : closer ∈ bs.closers) (ho : bs.lookup closer = none)
    {ts : List Token} (h : isNested bs due (t :: ts) = true) :
    ∃ inner c rest, ts = inner ++ c :: rest ∧ c.kind = closer
      ∧ isNested bs [] inner = true ∧ isNested bs due rest = true := by
  rw [isNested, Bool.and_eq_true, dueBehind, ht] at h
  exact @exists_of_isNested_append bs [] due closer hc ho ts h.2

end Rows

/-! ### Groups in angle brackets -/

/-- A group in angle brackets, as behind the name of a generic type. -/
structure AngleGroup where
  opening : Token
  inner : List Token
  closing : Token
  opening_kind : opening.kind = .openAngle := by decide
  opening_value : opening.value = "<" := by decide
  nested : isNested angleBrackets [] inner = true := by decide
  closing_kind : closing.kind = .closeAngle := by decide

namespace AngleGroup

variable (g : AngleGroup)

/-- The tokens of a group. -/
def tokens : List Token :=
  g.opening :: (g.inner ++ [g.closing])

/-- The piece of text that a group is read as. -/
def text : String :=
  joinTypeText (tokenValues g.tokens)

lemma readAngles_eq (rest : List Token) :
    readAngles g.opening (g.inner ++ g.closing :: rest) = (g.text, rest) := by
  have htail : angleTail 1 (g.inner ++ g.closing :: rest)
      = (g.inner.map (·.value) ++ [g.closing.value], rest) :=
    angleTail_append pair_angle g.nested g.closing_kind rest
  rw [readAngles, htail, text, tokens, tokenValues, List.map_cons,
    List.map_append]
  rfl

/-- The piece is joined like the tokens of the group. -/
lemma joinsAlike :
    JoinsAlike [g.text.toList] (g.tokens.map (·.value.toList)) := by
  rw [text, joinTypeText, String.toList_ofList, tokenValues, List.map_map,
    tokens, List.map_cons, List.map_cons, Function.comp_apply,
    g.opening_value]
  exact joinsAlike_group _

end AngleGroup

end HeaderBinding
