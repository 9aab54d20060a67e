/-
How the stretches of a text are spelled.

* `Spells`: a token of some kind and value stands for a stretch of text;
* `Group`, `OpenGroup`: parentheses up to the matching one, or up to the
  end of the text where it is missing;
* `Filler`: a stretch that makes no token: blanks, a comment, or a word
  that is left out, with or without a group behind it;
* `Lexeme.Right`: what holds of a lexeme, whether it makes a token or
  none; `right_readLexeme` has it for whatever is read of a text.
-/
import Mathlib.Data.List.TakeWhile
import Mathlib.Tactic.Lemma
import HeaderBinding.Token.Lexeme

namespace HeaderBinding

/-! ### Tokens -/

/-- Text in which every quote and every backslash stands behind a
backslash. -/
inductive Escaped (quote : Char) : List Char → Prop
  | nil : Escaped quote []
  | plain {c : Char} {cs : List Char} (hq : c ≠ quote) (hb : c ≠ '\\')
      (hr : Escaped quote cs) : Escaped quote (c :: cs)
  | pair (d : Char) {cs : List Char} (hr : Escaped quote cs) :
      Escaped quote ('\\' :: d :: cs)

/-- Escaped text, which one more backslash may end. -/
def EscapedToEnd (quote : Char) (cs : List Char) : Prop :=
  Escaped quote cs ∨ ∃ body, cs = body ++ ['\\'] ∧ Escaped quote body

/-- The text behind an opening quote: up to the first quote that is not
escaped, or all the text if there is none. -/
def Quotes (quote : Char) (body close rest : List Char) : Prop :=
  (close = [quote] ∧ Escaped quote body)
    ∨ (close = [] ∧ rest = [] ∧ EscapedToEnd quote body)

/-- The text without its continued line breaks. -/
def joinLines : List Char → List Char
  | '\\' :: '\n' :: cs => joinLines cs
  | '\\' :: '\r' :: '\n' :: cs => joinLines cs
  | c :: cs => c :: joinLines cs
  | [] => []

/-- The text without the carriage returns at its end. -/
def dropReturns (cs : List Char) : List Char :=
  (cs.reverse.dropWhile (· == '\r')).reverse

/-- The kinds whose tokens do not carry the text they stand for. -/
def quotedKinds : List TokenKind :=
  [.string, .char, .directive, .endOfInput]

/-- A token of the kind and the value stands for the stretch `span`, which
`rest` follows. -/
inductive Spells : TokenKind → String → List Char → List Char → Prop
  | plain {kind : TokenKind} {span rest : List Char}
      (h : kind ∉ quotedKinds) : Spells kind (String.ofList span) span rest
  | string {opening body close rest : List Char}
      (ho : opening = ['"'] ∨ opening = ['@', '"'])
      (h : Quotes '"' body close rest) :
      Spells .string (String.ofList body) (opening ++ (body ++ close)) rest
  | char {body close rest : List Char} (h : Quotes '\'' body close rest) :
      Spells .char (String.ofList body) ('\'' :: (body ++ close)) rest
  | directive {span rest : List Char} (h : span.head? = some '#')
      (hr : ∀ c ∈ rest.head?, c = '\n') :
      Spells .directive (String.ofList (dropReturns (joinLines span))) span
        rest

/-! ### Stretches without a token -/

/-- Parentheses up to the one that closes the first of them: before it,
more are opened than closed. -/
def Group (span : List Char) : Prop :=
  span.head? = some '(' ∧ span.count '(' = span.count ')'
    ∧ ∀ p, p <+: span → p ≠ [] → p ≠ span → p.count ')' < p.count '('

/-- Parentheses the first of which is never closed. -/
def OpenGroup (span : List Char) : Prop :=
  span.head? = some '('
    ∧ ∀ p, p <+: span → p ≠ [] → p.count ')' < p.count '('

/-- A whole word, which no further letter follows. -/
def Word (span rest : List Char) : Prop :=
  (∃ c ∈ span.head?, isNameStart c = true)
    ∧ (∀ c ∈ span, isWordChar c = true)
    ∧ ∀ c ∈ rest.head?, isWordChar c = false

/-- A word that is left out with the group behind it. -/
def MacroLike (rules : MacroRules) (word : String) : Prop :=
  word ∈ rules.skipNames ∨ word = "__attribute__"
    ∨ rules.isLikelyMacro word = true

/-- A stretch that makes no token, and what follows it.  What may stand as
the group behind a word is `group`. -/
inductive Filler (rules : MacroRules)
    (group : List Char → List Char → Prop) : List Char → List Char → Prop
  | blanks {span rest : List Char} (h : ∀ c ∈ span, isBlank c = true) :
      Filler rules group span rest
  | lineComment {body rest : List Char} (h : '\n' ∉ body)
      (hr : ∀ c ∈ rest.head?, c = '\n') :
      Filler rules group ('/' :: '/' :: body) rest
  | blockComment {body rest : List Char}
      (h : ¬ ['*', '/'] <:+: body ++ ['*']) :
      Filler rules group ('/' :: '*' :: (body ++ ['*', '/'])) rest
  | openComment {body : List Char} (h : ¬ ['*', '/'] <:+: body) :
      Filler rules group ('/' :: '*' :: body) []
  | word {span rest : List Char} (hw : Word span rest)
      (h : String.ofList span ∈ droppedWords
        ∨ MacroLike rules (String.ofList span)) :
      Filler rules group span rest
  | call {span blanks args rest : List Char}
      (hw : Word span (blanks ++ args ++ rest))
      (h : MacroLike rules (String.ofList span))
      (hb : ∀ c ∈ blanks, isBlank c = true) (hg : group args rest) :
      Filler rules group (span ++ (blanks ++ args)) rest

/-- A group, which goes to the end of the text if it is never closed. -/
def GroupToEnd (span rest : List Char) : Prop :=
  Group span ∨ (rest = [] ∧ OpenGroup span)

/-! ### The readers -/

/-- Text is quoted up to the first quote that is not escaped. -/
lemma quotes_readQuoted (quote : Char) (cs : List Char) :
    Quotes quote (readQuoted quote cs).body (readQuoted quote cs).close
      (readQuoted quote cs).rest := by
  fun_induction readQuoted quote cs with
  | case1 => exact .inr ⟨rfl, rfl, .inl .nil⟩
  | case2 => exact .inl ⟨rfl, .nil⟩
  | case3 c hq =>
      refine .inr ⟨rfl, rfl, ?_⟩
      by_cases hb : c = '\\'
      · exact .inr ⟨[], by rw [hb]; rfl, .nil⟩
      · exact .inl (.plain hq hb .nil)
  | case4 => exact .inl ⟨rfl, .nil⟩
  | case5 d cs r hq ih =>
      rcases ih with ⟨hc, hb⟩ | ⟨hc, hr, hb | ⟨body, hbody, hb⟩⟩
      · exact .inl ⟨hc, .pair d hb⟩
      · exact .inr ⟨hc, hr, .inl (.pair d hb)⟩
      · refine .inr ⟨hc, hr, .inr ⟨'\\' :: d :: body, ?_, .pair d hb⟩⟩
        show '\\' :: d :: r.body = _
        rw [hbody]
        rfl
  | case6 c d cs hq hb r ih =>
      rcases ih with ⟨hc, he⟩ | ⟨hc, hr, he | ⟨body, hbody, he⟩⟩
      · exact .inl ⟨hc, .plain hq hb he⟩
      · exact .inr ⟨hc, hr, .inl (.plain hq hb he)⟩
      · refine .inr ⟨hc, hr, .inr ⟨c :: body, ?_, .plain hq hb he⟩⟩
        show c :: r.body = _
        rw [hbody]
        rfl

/-- A directive stops before a line break. -/
lemma head?_rest_readDirective (cs : List Char) :
    ∀ c ∈ (readDirective cs).rest.head?, c = '\n' := by
  fun_induction readDirective cs with
  | case1 => simp
  | case2 cs => exact fun c h => (Option.some.inj h).symm
  | case3 cs r ih => exact ih
  | case4 cs r ih => exact ih
  | case5 c cs _ _ _ r ih => exact ih

/-- A directive spans no line break but continued ones. -/
lemma readDirective_raw_ne {cs : List Char} (ds : List Char) :
    (readDirective cs).raw ≠ '\n' :: ds := by
  fun_cases readDirective cs with
  | case1 => exact fun h => nomatch h
  | case2 cs => exact fun h => nomatch h
  | case3 cs r => exact fun h => absurd (List.cons.inj h).1 (by decide)
  | case4 cs r => exact fun h => absurd (List.cons.inj h).1 (by decide)
  | case5 c cs hc _ _ r => exact fun h => hc (List.cons.inj h).1

lemma readDirective_raw_ne_return {cs : List Char} (ds : List Char) :
    (readDirective cs).raw ≠ '\r' :: '\n' :: ds := by
  fun_cases readDirective cs with
  | case1 => exact fun h => nomatch h
  | case2 cs => exact fun h => nomatch h
  | case3 cs r => exact fun h => absurd (List.cons.inj h).1 (by decide)
  | case4 cs r => exact fun h => absurd (List.cons.inj h).1 (by decide)
  | case5 c cs _ _ _ r =>
      exact fun h => readDirective_raw_ne ds (List.cons.inj h).2

/-- What a directive carries is what it spans, with its lines joined. -/
lemma joinLines_readDirective (cs : List Char) :
    joinLines (readDirective cs).raw = (readDirective cs).body := by
  fun_induction readDirective cs with
  | case1 => rfl
  | case2 cs => rfl
  | case3 cs r ih => exact ih
  | case4 cs r ih => exact ih
  | case5 c cs hn hb hr r ih =>
      show joinLines (c :: r.raw) = c :: r.body
      rw [joinLines, ih]
      · exact fun ds _ h => readDirective_raw_ne ds h
      · exact fun ds _ h => readDirective_raw_ne_return ds h

/-- A comment ends at its first end mark, or with the text. -/
lemma readBlockComment_cases (cs : List Char) :
    (∃ body, (readBlockComment cs).1 = body ++ ['*', '/']
        ∧ ¬ ['*', '/'] <:+: body ++ ['*'])
      ∨ ((readBlockComment cs).2 = [] ∧ (readBlockComment cs).1 = cs
        ∧ ¬ ['*', '/'] <:+: cs) := by
  fun_induction readBlockComment cs with
  | case1 => exact .inr ⟨rfl, rfl, by decide⟩
  | case2 cs => exact .inl ⟨[], rfl, by decide⟩
  | case3 c cs hc r ih =>
      have happ := readBlockComment_append cs
      rcases ih with ⟨body, hbody, hno⟩ | ⟨hrest, hall, hno⟩
      · refine .inl ⟨c :: body, ?_, ?_⟩
        · show c :: r.1 = _
          rw [hbody]
          rfl
        · rw [List.cons_append, List.infix_cons_iff, not_or]
          refine ⟨fun hpre => ?_, hno⟩
          -- the first character would open the end mark
          obtain ⟨ds, hds⟩ := hpre
          obtain ⟨hstar, htail⟩ := List.cons.inj hds
          rw [hbody] at happ
          cases body with
          | nil => exact absurd (List.cons.inj htail).1 (by decide)
          | cons d body =>
              rw [← (List.cons.inj htail).1] at happ
              exact hc _ hstar.symm happ.symm
      · refine .inr ⟨hrest, congrArg (c :: ·) hall, ?_⟩
        rw [List.infix_cons_iff, not_or]
        refine ⟨fun hpre => ?_, hno⟩
        obtain ⟨ds, hds⟩ := hpre
        obtain ⟨hstar, htail⟩ := List.cons.inj hds
        exact hc _ hstar.symm htail.symm

/-- The depth behind a character counts it. -/
lemma count_cons_of_depth (c : Char) (depth : Nat) (cs : List Char) :
    (c :: cs).count '(' + (depth + 1) + cs.count ')'
      = cs.count '(' + (if c = '(' then depth + 2
          else if c = ')' then depth else depth + 1)
        + (c :: cs).count ')' := by
  rw [List.count_cons, List.count_cons]
  by_cases ho : c = '('
  · subst ho
    simp
    omega
  · by_cases hc : c = ')'
    · subst hc
      simp
      omega
    · simp [ho, hc]

/-- Inside `depth` parentheses the first place where all are closed ends
the reading, if there is one. -/
lemma readGroup_cases (depth : Nat) (cs : List Char) :
    ((readGroup depth cs).1.count '(' + depth
          = (readGroup depth cs).1.count ')'
        ∧ ∀ p, p <+: (readGroup depth cs).1 → p ≠ (readGroup depth cs).1 →
          p.count ')' < p.count '(' + depth)
      ∨ ((readGroup depth cs).2 = []
        ∧ ∀ p, p <+: (readGroup depth cs).1 →
          p.count ')' < p.count '(' + depth) := by
  fun_induction readGroup depth cs with
  | case1 cs =>
      exact .inl ⟨rfl, fun p hp hne => absurd (List.prefix_nil.mp hp) hne⟩
  | case2 depth =>
      refine .inr ⟨rfl, fun p hp => ?_⟩
      rw [List.prefix_nil.mp hp]
      exact Nat.lt_of_lt_of_le (Nat.succ_pos depth) (Nat.le_add_left _ _)
  | case3 depth c cs r ih =>
      have hr : r = readGroup (if c = '(' then depth + 2
        else if c = ')' then depth else depth + 1) cs := rfl
      clear_value r
      generalize hm : (if c = '(' then depth + 2
        else if c = ')' then depth else depth + 1) = m at ih hr
      subst hr
      have hstep : ∀ q : List Char,
          (c :: q).count '(' + (depth + 1) + q.count ')'
            = q.count '(' + m + (c :: q).count ')' := by
        intro q
        rw [← hm]
        exact count_cons_of_depth c depth q
      have hprefix : ∀ p t, p = c :: t → t.count ')' < t.count '(' + m →
          p.count ')' < p.count '(' + (depth + 1) := by
        intro p t hp hlt
        have := hstep t
        rw [hp]
        omega
      have hnil : ([] : List Char).count ')'
          < ([] : List Char).count '(' + (depth + 1) := by simp
      rcases ih with ⟨hcount, hlt⟩ | ⟨hrest, hlt⟩
      · refine .inl ⟨?_, fun p hp hne => ?_⟩
        · have := hstep (readGroup m cs).1
          show (c :: (readGroup m cs).1).count '(' + (depth + 1)
            = (c :: (readGroup m cs).1).count ')'
          omega
        · rcases List.prefix_cons_iff.mp hp with rfl | ⟨t, ht, hpre⟩
          · exact hnil
          · exact hprefix p t ht (hlt t hpre fun heq => hne (heq ▸ ht))
      · refine .inr ⟨hrest, fun p hp => ?_⟩
        rcases List.prefix_cons_iff.mp hp with rfl | ⟨t, ht, hpre⟩
        · exact hnil
        · exact hprefix p t ht (hlt t hpre)

/-- An opening parenthesis and what is read behind it are a group, or go
to the end of the text. -/
lemma groupToEnd_readGroup (cs : List Char) :
    GroupToEnd ('(' :: (readGroup 1 cs).1) (readGroup 1 cs).2 := by
  have hpre : ∀ p, p <+: '(' :: (readGroup 1 cs).1 → p ≠ [] →
      ∃ t, p = '(' :: t ∧ t <+: (readGroup 1 cs).1 := by
    intro p hp hne
    exact (List.prefix_cons_iff.mp hp).resolve_left hne
  rcases readGroup_cases 1 cs with ⟨hcount, hlt⟩ | ⟨hrest, hlt⟩
  · refine .inl ⟨rfl, by simpa using hcount, fun p hp hne hall => ?_⟩
    obtain ⟨t, rfl, ht⟩ := hpre p hp hne
    have := hlt t ht fun heq => hall (congrArg _ heq)
    simpa using this
  · refine .inr ⟨hrest, rfl, fun p hp hne => ?_⟩
    obtain ⟨t, rfl, ht⟩ := hpre p hp hne
    simpa using hlt t ht

/-! ### Lexemes -/

/-- The lexeme stands for its token as it is spelled, or is a stretch that
makes none. -/
def Lexeme.Right (rules : MacroRules) (l : Lexeme) (rest : List Char) :
    Prop :=
  match l.token? with
  | some (kind, value) => Spells kind value l.raw rest
  | none => Filler rules GroupToEnd l.raw rest

lemma forall_mem_takeWhile {p : Char → Bool} (cs : List Char) :
    ∀ c ∈ cs.takeWhile p, p c = true :=
  fun _ h => List.mem_takeWhile_imp h

lemma head?_dropWhile {p : Char → Bool} (cs : List Char) :
    ∀ c ∈ (cs.dropWhile p).head?, p c = false := by
  intro c hc
  have := List.head?_dropWhile_not p cs
  rw [hc] at this
  simpa using this

lemma word_takeWhile {c : Char} {cs : List Char}
    (h : isNameStart c = true) :
    Word ((c :: cs).takeWhile isWordChar)
      ((c :: cs).dropWhile isWordChar) := by
  refine ⟨⟨c, ?_, h⟩, forall_mem_takeWhile _, head?_dropWhile _⟩
  rw [List.takeWhile_cons_of_pos (isWordChar_of_isNameStart h)]
  rfl

lemma wordKind_not_quoted (word : String) :
    wordKind word ∉ quotedKinds := by
  unfold wordKind
  split <;> decide

lemma atKeyword?_not_quoted (word : String) :
    (atKeyword? word).getD .identifier ∉ quotedKinds := by
  unfold atKeyword?
  split <;> decide

lemma punctuationKind_not_quoted (c : Char) :
    punctuationKind c ∉ quotedKinds := by
  unfold punctuationKind
  split <;> decide

lemma right_plain {rules : MacroRules} {kind : TokenKind}
    {span rest : List Char} (h : kind ∉ quotedKinds) :
    Lexeme.Right rules ⟨span, some (kind, String.ofList span)⟩ rest :=
  Spells.plain h

lemma right_quotedLexeme {rules : MacroRules} {before : List Char}
    (hb : before = [] ∨ before = ['@']) (cs : List Char) :
    (quotedLexeme .string before '"' cs).1.Right rules
      (quotedLexeme .string before '"' cs).2 := by
  have h := quotes_readQuoted '"' cs
  have hopening : before ++ ['"'] = ['"'] ∨ before ++ ['"'] = ['@', '"'] := by
    rcases hb with rfl | rfl <;> simp
  have hs := Spells.string hopening h
  rw [List.append_assoc, List.singleton_append] at hs
  exact hs

lemma right_readAt (rules : MacroRules) (cs : List Char) :
    (readAt cs).1.Right rules (readAt cs).2 := by
  unfold readAt
  split
  · exact right_plain (by decide)
  split
  · exact right_quotedLexeme (.inr rfl) _
  split
  · exact right_plain (atKeyword?_not_quoted _)
  · exact right_plain (by decide)

lemma right_readPunctuation (rules : MacroRules) (c : Char)
    (cs : List Char) :
    (readPunctuation c cs).1.Right rules (readPunctuation c cs).2 := by
  unfold readPunctuation
  split
  · exact right_plain (by decide)
  · rw [String.singleton_eq_ofList]
    exact right_plain (punctuationKind_not_quoted c)

/-- The first rule that applies to a word is right about it. -/
lemma wordRole_cases (rules : MacroRules) (word : String) :
    (∃ kind, wordRole rules word = .keep kind ∧ kind ∉ quotedKinds)
      ∨ (wordRole rules word = .drop ∧ word ∈ droppedWords)
      ∨ (wordRole rules word = .dropWithArguments
        ∧ MacroLike rules word) := by
  unfold wordRole
  split
  · rename_i h
    simp only [skipsArguments, Bool.or_eq_true, beq_iff_eq,
      List.contains_iff_mem] at h
    exact .inr (.inr ⟨rfl, h.imp_right .inl⟩)
  split
  · rename_i h
    exact .inr (.inl ⟨rfl, List.contains_iff_mem.mp h⟩)
  split
  · exact .inl ⟨_, rfl, by decide⟩
  split
  · exact .inl ⟨_, rfl, by decide⟩
  split
  · rename_i h
    exact .inr (.inr ⟨rfl, .inr (.inr h)⟩)
  · exact .inl ⟨_, rfl, wordKind_not_quoted word⟩

/-- A word that is left out, and the group behind it if there is one. -/
lemma filler_call {rules : MacroRules} {span cs : List Char}
    (hw : Word span cs) (h : MacroLike rules (String.ofList span)) :
    Filler rules GroupToEnd (span ++ (readArguments cs).1)
      (readArguments cs).2 := by
  have happ := readArguments_append cs
  unfold readArguments at happ ⊢
  split at happ
  · rename_i rest hdrop
    refine .call (by rwa [happ]) h (forall_mem_takeWhile cs)
      (groupToEnd_readGroup rest)
  · rw [List.append_nil]
    exact .word hw (.inr h)

lemma right_readWord (rules : MacroRules) {c : Char} (cs : List Char)
    (h : isNameStart c = true) :
    (readWord rules (c :: cs)).1.Right rules
      (readWord rules (c :: cs)).2 := by
  have hw : Word ((c :: cs).takeWhile isWordChar)
      ((c :: cs).dropWhile isWordChar) := word_takeWhile h
  rw [readWord]
  dsimp only
  rcases wordRole_cases rules
    (String.ofList ((c :: cs).takeWhile isWordChar))
    with ⟨kind, hrole, hkind⟩ | ⟨hrole, hword⟩ | ⟨hrole, hword⟩
  · rw [hrole]
    exact right_plain hkind
  · rw [hrole]
    exact Filler.word hw (.inl hword)
  · rw [hrole]
    exact filler_call hw hword

lemma right_lineComment (rules : MacroRules) (cs : List Char) :
    Filler rules GroupToEnd ('/' :: ('/' :: cs).takeWhile (· ≠ '\n'))
      (('/' :: cs).dropWhile (· ≠ '\n')) := by
  rw [List.takeWhile_cons_of_pos (by decide),
    List.dropWhile_cons_of_pos (by decide)]
  refine .lineComment (fun h => ?_) fun c hc => ?_
  · simpa using forall_mem_takeWhile cs _ h
  · simpa using head?_dropWhile cs c hc

lemma right_blockComment (rules : MacroRules) (cs : List Char) :
    Filler rules GroupToEnd ('/' :: '*' :: (readBlockComment cs).1)
      (readBlockComment cs).2 := by
  rcases readBlockComment_cases cs with ⟨body, hbody, hno⟩ | ⟨hrest, hall, hno⟩
  · rw [hbody]
    exact .blockComment hno
  · rw [hrest, hall]
    exact .openComment hno

lemma right_directive (rules : MacroRules) (cs : List Char) :
    let r := readDirective ('#' :: cs)
    Lexeme.Right rules ⟨r.raw, some (.directive, directiveText r.body)⟩
      r.rest := by
  have hmark : (readDirective ('#' :: cs)).raw.head? = some '#' := by
    simp [readDirective]
  have h := Spells.directive hmark (head?_rest_readDirective ('#' :: cs))
  rw [joinLines_readDirective] at h
  exact h

/-- Whatever is read of a text is a token as it is spelled, or a stretch
that makes none. -/
lemma right_readLexeme (rules : MacroRules) (c : Char) (cs : List Char) :
    (readLexeme rules c cs).1.Right rules (readLexeme rules c cs).2 := by
  unfold readLexeme
  split
  · rename_i h
    refine Filler.blanks fun d hd => ?_
    rcases List.mem_cons.mp hd with rfl | hd
    · exact h
    · exact forall_mem_takeWhile cs d hd
  split
  · rename_i h
    obtain ⟨rfl, hhead⟩ := h
    obtain ⟨ds, rfl⟩ := List.head?_eq_some_iff.mp hhead
    exact right_lineComment rules ds
  split
  · rename_i h
    obtain ⟨rfl, hhead⟩ := h
    obtain ⟨ds, rfl⟩ := List.head?_eq_some_iff.mp hhead
    exact right_blockComment rules ds
  split
  · rename_i h
    subst h
    exact right_directive rules cs
  split
  · exact right_readAt rules cs
  split
  · rename_i h
    subst h
    exact right_quotedLexeme (.inl rfl) cs
  split
  · rename_i h
    obtain ⟨rfl, -⟩ := h
    exact Spells.char (quotes_readQuoted '\'' cs)
  split
  · exact right_plain (by decide)
  split
  · rename_i h
    exact right_readWord rules cs h
  · exact right_readPunctuation rules c cs

end HeaderBinding
