/-
The tokens of an expression, put together in the customary spelling, are
read again as they were.

* `Laid`: a text in which tokens stand one behind the other, each as it is
  written, with blanks where they are needed; `Laid.facesOf_eq`: those are
  its tokens;
* `PiecesLaid`: the pieces that an expression is joined of, with the tokens
  in them;
* `laid_joinExpression`: an expression is laid out by joining it;
* `length_le_one_of_loneQuote`: a quote that stands alone has at most one
  token behind it.
-/
import HeaderBinding.Proofs.Token.Joined

namespace HeaderBinding

variable {rules : MacroRules}

/-! ### Tokens that are laid out -/

/-- Marks that stand alone, whatever follows them, with the two that only
expressions have. -/
def loneMarks : List Char :=
  '~' :: '!' :: marks

/-- A quote that opens nothing. -/
def loneQuote : Face :=
  (.unknown, "'")

/-- What follows a token is not read with it: the token is a mark, or ends
in front of anything. -/
def Apart (cs after : List Char) : Prop :=
  (∃ c ∈ loneMarks, cs = [c]) ∨ EndsToken after

/-- The tokens stand in the text in their order, with nothing but blanks
between them.  A quote may stand alone at the end. -/
inductive Laid (rules : MacroRules) : List Face → List Char → Prop
  | nil : Laid rules [] []
  | quote : Laid rules [loneQuote] ['\'']
  | blank {fs : List Face} {cs : List Char} (h : Laid rules fs cs) :
      Laid rules fs (' ' :: cs)
  | token {f : Face} {fs : List Face} {cs : List Char}
      (hf : Readable rules f) (ha : Apart f.2.toList cs)
      (h : Laid rules fs cs) : Laid rules (f :: fs) (f.2.toList ++ cs)

lemma readLexeme_loneMark {c : Char} (h : c ∈ loneMarks) (cs : List Char) :
    readLexeme rules c cs
      = (⟨[c], some (punctuationKind c, String.singleton c)⟩, cs) := by
  by_cases hm : c ∈ marks
  · exact readLexeme_mark hm cs
  · have hc : c = '~' ∨ c = '!' := by
      simpa [loneMarks, hm] using h
    rcases hc with rfl | rfl <;>
      rw [readLexeme_plain (by decide) (by decide)
          (fun hs => absurd hs (by decide)),
        if_neg (by simp [isDigit]), if_neg (by decide),
        readPunctuation_of_ne (fun hd => absurd hd (by decide))]

/-- A token is read again where what follows is apart from it. -/
lemma Readable.exists_readLexeme {f : Face} (h : Readable rules f)
    {after : List Char} (ha : Apart f.2.toList after) :
    ∃ c cs, f.2.toList = c :: cs
      ∧ readLexeme rules c (cs ++ after)
        = (⟨c :: cs, some f⟩, after) := by
  obtain ⟨c, cs, hcs⟩ := List.exists_cons_of_ne_nil h.toList_ne_nil
  have hshape : Shape rules f.1 (c :: cs) := hcs ▸ h
  have hface : f = (f.1, String.ofList (c :: cs)) := by
    rw [← hcs, String.ofList_toList]
  refine ⟨c, cs, hcs, ?_⟩
  rcases ha with ⟨m, hm, heq⟩ | hends
  · obtain ⟨rfl, rfl⟩ := List.cons.inj (hcs.symm.trans heq)
    -- read by itself, the mark has one face only
    have halone := hshape.readLexeme_append endsToken_nil
    rw [List.append_nil, readLexeme_loneMark hm, Prod.mk.injEq,
      Lexeme.mk.injEq, ← hface] at halone
    rw [List.nil_append, readLexeme_loneMark hm, halone.1.2]
  · rw [hshape.readLexeme_append hends, ← hface]

/-- A token does not begin with a blank. -/
lemma Readable.isBlank_head {f : Face} (h : Readable rules f) :
    ∀ c ∈ f.2.toList.head?, isBlank c = false := by
  obtain ⟨c, cs, hcs, hread⟩ := h.exists_readLexeme (.inr endsToken_nil)
  intro d hd
  rw [hcs] at hd
  obtain rfl : c = d := Option.some.inj hd
  by_contra hblank
  rw [readLexeme_blank _ (by simpa using hblank)] at hread
  simp at hread

lemma readLexeme_loneQuote :
    readLexeme rules '\'' [] = (⟨['\''], some loneQuote⟩, []) := by
  rw [readLexeme, if_neg (by decide), if_neg (by decide),
    if_neg (by decide), if_neg (by decide), if_neg (by decide),
    if_neg (by decide), if_neg (by decide), if_neg (by decide),
    if_neg (by decide)]
  rfl

/-- The tokens of a text are those that are laid out in it. -/
theorem Laid.facesOf_eq {fs : List Face} {cs : List Char}
    (h : Laid rules fs cs) : facesOf rules cs = fs := by
  induction h with
  | nil => exact facesOf_nil
  | quote =>
      rw [facesOf_of_token readLexeme_loneQuote, facesOf_nil]
  | blank _ ih => rw [facesOf_blank (by decide), ih]
  | token hf ha _ ih =>
      obtain ⟨c, cs, hcs, hread⟩ := hf.exists_readLexeme ha
      rw [hcs, List.cons_append, facesOf_of_token hread, ih]

/-! ### Pieces -/

/-- The piece has the tokens in it, laid out, wherever it ends. -/
def IsPiece (rules : MacroRules) (p : List Char) (fs : List Face) : Prop :=
  p ≠ [] ∧ ∀ gs rest, Apart p rest → Laid rules gs rest →
    Laid rules (fs ++ gs) (p ++ rest)

lemma Readable.isPiece {f : Face} (h : Readable rules f) :
    IsPiece rules f.2.toList [f] :=
  ⟨h.toList_ne_nil, fun _ _ ha hl => .token h ha hl⟩

/-- Pieces with the tokens in them.  The last one has nothing behind it,
and so may be a quote that stands alone. -/
inductive PiecesLaid (rules : MacroRules) : List String → List Face → Prop
  | last {p : String} {fs : List Face} (hp : p.toList ≠ [])
      (h : Laid rules fs p.toList) : PiecesLaid rules [p] fs
  | cons {p : String} {ps : List String} {fs gs : List Face}
      (hp : IsPiece rules p.toList fs) (h : PiecesLaid rules ps gs) :
      PiecesLaid rules (p :: ps) (fs ++ gs)

/-- A piece that stands behind another one without a space is apart from
it. -/
lemma apart_of_joined {before : Option String} {prev p : String}
    (h : (prev == "(" || p == ")" || (unaryOperators.contains prev
      && before.all operatorPieces.contains)) = true) (rest : List Char) :
    Apart prev.toList (p.toList ++ rest) := by
  -- by the list, as there are too many characters to go through them all
  have hlist : ∀ s ∈ "(" :: unaryOperators,
      s.toList ∈ loneMarks.map fun c => [c] := by decide
  have hmarks : ∀ s ∈ "(" :: unaryOperators,
      ∃ c ∈ loneMarks, s.toList = [c] := by
    intro s hs
    obtain ⟨c, hc, heq⟩ := List.mem_map.mp (hlist s hs)
    exact ⟨c, hc, heq.symm⟩
  simp only [Bool.or_eq_true, Bool.and_eq_true, beq_iff_eq,
    List.contains_iff_mem] at h
  rcases h with (rfl | rfl) | ⟨hsign, -⟩
  · exact .inl (hmarks _ List.mem_cons_self)
  · exact .inr (endsToken_cons (by decide) rest)
  · exact .inl (hmarks _ (List.mem_cons_of_mem _ hsign))

/-- A piece in front of what is laid out. -/
lemma laid_joinExpressionAfter_cons {p : String} {ps : List String}
    {fs : List Face} {before : Option String} {prev : String}
    (h : Laid rules fs
      (p.toList ++ (joinExpressionAfter (some prev) p ps).toList)) :
    Laid rules fs (joinExpressionAfter before prev (p :: ps)).toList
      ∧ Apart prev.toList
        (joinExpressionAfter before prev (p :: ps)).toList := by
  rw [joinExpressionAfter, String.toList_append]
  split
  · rename_i hjoined
    exact ⟨h, apart_of_joined hjoined _⟩
  · rw [String.toList_append]
    exact ⟨.blank h, .inr (endsToken_cons (by decide) _)⟩

/-- Joined behind some piece, the pieces are laid out and apart from it. -/
lemma PiecesLaid.laid_joinExpressionAfter {ps : List String}
    {fs : List Face} (h : PiecesLaid rules ps fs) (before : Option String)
    (prev : String) :
    Laid rules fs (joinExpressionAfter before prev ps).toList
      ∧ Apart prev.toList (joinExpressionAfter before prev ps).toList := by
  induction h generalizing before prev with
  | last _ h =>
      refine laid_joinExpressionAfter_cons ?_
      rw [joinExpressionAfter, String.toList_empty, List.append_nil]
      exact h
  | @cons p ps fs gs hp _ ih =>
      obtain ⟨hlaid, hapart⟩ := ih (some prev) p
      exact laid_joinExpressionAfter_cons (hp.2 _ _ hapart hlaid)

/-! ### The pieces of an expression -/

/-- Half of a shift operator in front of a piece. -/
lemma IsPiece.cons_mark {f : Face} (hf : Readable rules f) {c : Char}
    (hc : c ∈ loneMarks) (hfc : f.2.toList = [c]) {p : List Char}
    {fs : List Face} (h : IsPiece rules p fs) :
    IsPiece rules (f.2.toList ++ p) (f :: fs) := by
  refine ⟨List.append_ne_nil_of_right_ne_nil _ h.1, ?_⟩
  intro gs rest ha hl
  have hends : EndsToken rest := by
    refine ha.resolve_left ?_
    rintro ⟨d, -, hd⟩
    rw [hfc, List.singleton_append, List.cons.injEq] at hd
    exact h.1 hd.2
  rw [List.append_assoc, List.cons_append]
  exact .token hf (.inl ⟨c, hc, hfc⟩) (h.2 gs rest (.inr hends) hl)

/-- Half of a shift operator in front of the first of some pieces. -/
lemma PiecesLaid.cons_mark {f : Face} (hf : Readable rules f) {c : Char}
    (hc : c ∈ loneMarks) (hfc : f.2.toList = [c]) {p : String}
    {ps : List String} {fs : List Face} (h : PiecesLaid rules (p :: ps) fs) :
    PiecesLaid rules ((f.2 ++ p) :: ps) (f :: fs) := by
  cases h with
  | last hp h =>
      refine .last ?_ ?_ <;> rw [String.toList_append]
      · exact List.append_ne_nil_of_right_ne_nil _ hp
      · exact .token hf (.inl ⟨c, hc, hfc⟩) h
  | cons hp h =>
      rw [← List.cons_append]
      refine .cons ?_ h
      rw [String.toList_append]
      exact hp.cons_mark hf hc hfc

/-- The halves of a shift operator are marks that stand alone. -/
lemma exists_loneMark_of_touchingAngles {t u : Token}
    (h : touchingAngles t u = true) (ht : Readable rules t.face) :
    ∃ c ∈ loneMarks, t.face.2.toList = [c] := by
  simp only [touchingAngles, Bool.and_eq_true, Bool.or_eq_true,
    decide_eq_true_eq] at h
  obtain ⟨⟨⟨hu, hkind⟩, -⟩, -⟩ := h
  rw [← hkind] at hu
  have hlabel : t.value = t.kind.label := by
    refine ht.eq_label (?_ : t.kind ∈ markKinds)
    rcases hu with hu | hu <;> exact hu ▸ by decide
  have hchar : t.kind.label.toList ∈ loneMarks.map fun c => [c] := by
    rcases hu with hu | hu <;> exact hu ▸ by decide
  rw [← hlabel] at hchar
  obtain ⟨c, hc, heq⟩ := List.mem_map.mp hchar
  exact ⟨c, hc, heq.symm⟩

/-- Tokens that can be written out: each is read as it stands, or is a quote
that stands alone at the end. -/
inductive Legible (rules : MacroRules) : List Face → Prop
  | nil : Legible rules []
  | quote : Legible rules [loneQuote]
  | cons {f : Face} {fs : List Face} (hf : Readable rules f)
      (h : Legible rules fs) : Legible rules (f :: fs)

/-- Each piece of an expression is laid out of its tokens. -/
lemma piecesLaid_expressionPieces {t : Token} {ts : List Token}
    (h : Legible rules ((t :: ts).map Token.face)) :
    PiecesLaid rules (expressionPieces (t :: ts))
      ((t :: ts).map Token.face) := by
  induction ts generalizing t with
  | nil =>
      have hlaid : t.value.toList ≠ []
          ∧ Laid rules [t.face] t.value.toList := by
        generalize hfs : [t].map Token.face = fs at h
        cases h with
        | nil => cases hfs
        | quote =>
            have hface : t.face = loneQuote := (List.cons.inj hfs).1
            have hvalue : t.value = "'" := congrArg Prod.snd hface
            rw [hface, hvalue]
            exact ⟨by decide, .quote⟩
        | cons hf h =>
            obtain ⟨rfl, rfl⟩ := List.cons.inj hfs
            refine ⟨hf.toList_ne_nil, ?_⟩
            have := Laid.token hf (.inr endsToken_nil) .nil
            rwa [List.append_nil] at this
      rw [expressionPieces]
      exact .last hlaid.1 hlaid.2
  | cons u ts ih =>
      generalize hfs : (t :: u :: ts).map Token.face = fs at h
      cases h with
      | nil => cases hfs
      | quote => exact absurd (List.cons.inj hfs).2 (by simp)
      | cons hf h =>
          obtain ⟨rfl, rfl⟩ := List.cons.inj hfs
          have hpieces := ih h
          rw [expressionPieces]
          split
          · rename_i hnil
            rw [hnil] at hpieces
            cases hpieces
          · rename_i p ps hcons
            rw [hcons] at hpieces
            split
            · rename_i hangles
              obtain ⟨c, hc, hfc⟩ :=
                exists_loneMark_of_touchingAngles hangles hf
              exact hpieces.cons_mark hf hc hfc
            · exact .cons hf.isPiece hpieces

/-- **Expressions are kept.**  Joining lays the tokens out, so that they are
read again. -/
theorem laid_joinExpression {ts : List Token}
    (h : Legible rules (ts.map Token.face)) :
    Laid rules (ts.map Token.face) (joinExpression ts).toList := by
  cases ts with
  | nil => exact .nil
  | cons t ts =>
      have hpieces := piecesLaid_expressionPieces h
      unfold joinExpression
      generalize expressionPieces (t :: ts) = ps at hpieces
      generalize (t :: ts).map Token.face = fs at hpieces
      cases hpieces with
      | @last p fs _ hlaid =>
          simp only [joinExpressionAfter, String.append_empty]
          exact hlaid
      | @cons p ps fs gs hp hpieces =>
          obtain ⟨hrest, hapart⟩ := hpieces.laid_joinExpressionAfter none p
          dsimp only
          rw [String.toList_append]
          exact hp.2 _ _ hapart hrest

/-! ### Rows of tokens -/

/-- A quote that stands alone has at most one character behind it. -/
lemma length_le_one_of_readLexeme {c : Char} {cs : List Char}
    (h : (readLexeme rules c cs).1.token? = some loneQuote) :
    (readLexeme rules c cs).2 = cs ∧ cs.length ≤ 1 := by
  have hright := right_readLexeme rules c cs
  have happ := readLexeme_append rules c cs
  rw [Lexeme.Right, h] at hright
  -- the lexeme is nothing but the quote
  have hraw : (readLexeme rules c cs).1.raw = ['\''] := by
    simp only [loneQuote] at hright
    generalize hv : "'" = value at hright
    cases hright with
    | plain => simpa using congrArg String.toList hv.symm
  rw [hraw, List.singleton_append, List.cons.injEq] at happ
  obtain ⟨rfl, hrest⟩ := happ
  refine ⟨hrest, ?_⟩
  by_contra hlen
  rw [readLexeme, if_neg (by decide), if_neg (by simp), if_neg (by simp),
    if_neg (by decide), if_neg (by decide), if_neg (by decide),
    if_pos ⟨rfl, by omega⟩] at h
  simp [quotedLexeme, loneQuote] at h

lemma length_facesOf_le (rules : MacroRules) (cs : List Char) :
    (facesOf rules cs).length ≤ cs.length := by
  induction cs using lexemes.induct rules with
  | case1 => simp
  | case2 c cs ih =>
      have hlt := length_readLexeme_lt rules c cs
      rcases hread : readLexeme rules c cs with ⟨⟨raw, - | f⟩, rest⟩ <;>
        rw [hread] at ih hlt <;> simp only at ih hlt
      · rw [facesOf_of_filler hread, List.length_cons]
        omega
      · rw [facesOf_of_token hread, List.length_cons, List.length_cons]
        omega

/-- A quote that stands alone has at most one token behind it. -/
lemma length_le_one_of_loneQuote {cs : List Char} {before after : List Face}
    (h : facesOf rules cs = before ++ loneQuote :: after) :
    after.length ≤ 1 := by
  induction cs using lexemes.induct rules generalizing before with
  | case1 => simp at h
  | case2 c cs ih =>
      rcases hread : readLexeme rules c cs with ⟨⟨raw, - | f⟩, rest⟩ <;>
        rw [hread] at ih
      · rw [facesOf_of_filler hread] at h
        exact ih h
      · rw [facesOf_of_token hread] at h
        cases before with
        | nil =>
            obtain ⟨rfl, rfl⟩ := List.cons.inj h
            have hone : (readLexeme rules c cs).2 = cs ∧ cs.length ≤ 1 :=
              length_le_one_of_readLexeme (by rw [hread])
            rw [hread] at hone
            obtain ⟨rfl, hlen⟩ := hone
            exact (length_facesOf_le rules _).trans hlen
        | cons b before => exact ih (List.cons.inj h).2

/-- Tokens of a text that is not over behind them can be written out, if
none is quoted; directives are left out. -/
theorem legible_of_facesOf_eq {cs : List Char} {before fs after : List Face}
    (h : facesOf rules cs = before ++ (fs ++ after)) (hafter : after ≠ [])
    (hfs : ∀ f ∈ fs, f.1 ∉ [TokenKind.string, .char]) :
    Legible rules (fs.filter (·.1 ≠ .directive)) := by
  induction fs generalizing before with
  | nil => exact .nil
  | cons f fs ih =>
      obtain ⟨hf, hfs⟩ := List.forall_mem_cons.mp hfs
      have hrest : Legible rules (fs.filter (·.1 ≠ .directive)) := by
        have hmore : facesOf rules cs = before ++ [f] ++ (fs ++ after) := by
          rw [h, List.append_assoc, List.singleton_append, List.cons_append]
        exact ih hmore hfs
      by_cases hdirective : f.1 = .directive
      · rwa [List.filter_cons_of_neg (by simp [hdirective])]
      rw [List.filter_cons_of_pos (by simp [hdirective])]
      by_cases hquote : f = loneQuote
      · rw [hquote] at h ⊢
        -- what follows the row leaves no room behind the quote
        have hlen : (fs ++ after).length ≤ 1 := length_le_one_of_loneQuote h
        have hpos := List.length_pos_iff.mpr hafter
        rw [List.length_append] at hlen
        rw [List.length_eq_zero_iff.mp (show fs.length = 0 by omega)]
        exact .quote
      · have hmem : f ∈ facesOf rules cs := by simp [h]
        refine .cons (readable_of_mem_facesOf ⟨?_, hquote⟩ hmem) hrest
        simp only [List.mem_cons, List.not_mem_nil, or_false, not_or] at hf ⊢
        exact ⟨hf.1, hf.2, hdirective⟩

end HeaderBinding
