/-
Texts whose lines end in a carriage return and a line feed.

* `withReturns`: the text with a carriage return in front of each line feed;
* `readGroup_withReturns`, `readDirective_withReturns`, ...: one lemma for
  each reader;
* `ReadAlike`: the same token is read of a text with and without carriage
  returns, and what is left differs only by one of them;
  `readAlike_readLexeme` has it for any lexeme;
* `tokensFrom_withReturns`: so the tokens and their places are the same;
* `tokenize_withReturns`: the tokens and the header of a whole text.
-/
import HeaderBinding.Header.Read
import HeaderBinding.Proofs.Token.Seam

namespace HeaderBinding

variable {rules : MacroRules} {cs : List Char} {c : Char}

/-! ### Carriage returns -/

/-- The text with a carriage return in front of each line feed. -/
def withReturns : List Char → List Char
  | [] => []
  | c :: cs =>
    if c = '\n' then '\r' :: '\n' :: withReturns cs else c :: withReturns cs

@[simp] lemma withReturns_nil : withReturns [] = [] := rfl

@[simp] lemma withReturns_newline (cs : List Char) :
    withReturns ('\n' :: cs) = '\r' :: '\n' :: withReturns cs := rfl

lemma withReturns_cons (hc : c ≠ '\n') (cs : List Char) :
    withReturns (c :: cs) = c :: withReturns cs := by
  rw [withReturns, if_neg hc]

lemma withReturns_append (as bs : List Char) :
    withReturns (as ++ bs) = withReturns as ++ withReturns bs := by
  induction as with
  | nil => rfl
  | cons a as ih =>
      rw [List.cons_append, withReturns, withReturns, ih]
      split <;> rfl

/-- A text of one line stays as it is. -/
lemma withReturns_of_not_mem (h : '\n' ∉ cs) : withReturns cs = cs := by
  induction cs with
  | nil => rfl
  | cons c cs ih =>
      rw [List.mem_cons, not_or] at h
      rw [withReturns_cons (Ne.symm h.1), ih h.2]

lemma mem_withReturns (h : c ∈ withReturns cs) : c = '\r' ∨ c ∈ cs := by
  induction cs with
  | nil => exact nomatch h
  | cons d cs ih =>
      by_cases hn : d = '\n'
      · subst hn
        rw [withReturns_newline] at h
        simp only [List.mem_cons] at h ⊢
        tauto
      · rw [withReturns_cons hn] at h
        simp only [List.mem_cons] at h ⊢
        tauto

lemma length_le_withReturns (cs : List Char) :
    cs.length ≤ (withReturns cs).length := by
  induction cs with
  | nil => exact Nat.le_refl _
  | cons c cs ih =>
      rw [withReturns]
      split <;> simp only [List.length_cons] <;> omega

/-- The text begins with the same character, or with a carriage return for
a line feed. -/
lemma withReturns_cases (cs : List Char) :
    (∃ ds, cs = '\n' :: ds
        ∧ withReturns cs = '\r' :: '\n' :: withReturns ds)
      ∨ (withReturns cs).head? = cs.head? := by
  cases cs with
  | nil => exact .inr rfl
  | cons c cs =>
      by_cases hc : c = '\n'
      · subst hc
        exact .inl ⟨cs, rfl, rfl⟩
      · rw [withReturns_cons hc]
        exact .inr rfl

/-- Only line breaks tell the first characters apart. -/
lemma head?_withReturns_iff {d : Char} (hn : d ≠ '\n') (hr : d ≠ '\r') :
    (withReturns cs).head? = some d ↔ cs.head? = some d := by
  rcases withReturns_cases cs with ⟨ds, rfl, h⟩ | h
  · rw [h]
    exact iff_of_false (fun he => hr (Option.some.inj he).symm)
      fun he => hn (Option.some.inj he).symm
  · rw [h]

lemma any_head?_withReturns {p : Char → Bool} (h : p '\r' = p '\n') :
    (withReturns cs).head?.any p = cs.head?.any p := by
  rcases withReturns_cases cs with ⟨ds, rfl, hds⟩ | hds
  · rw [hds]
    exact h
  · rw [hds]

/-- Runs of characters among which both line breaks count, or neither. -/
lemma span_withReturns {p : Char → Bool} (h : p '\r' = p '\n')
    (cs : List Char) :
    (withReturns cs).takeWhile p = withReturns (cs.takeWhile p)
      ∧ (withReturns cs).dropWhile p = withReturns (cs.dropWhile p) := by
  induction cs with
  | nil => exact ⟨rfl, rfl⟩
  | cons c cs ih =>
      by_cases hc : c = '\n'
      · subst hc
        cases hp : p '\n' with
        | true => simp [h, hp, ih]
        | false => simp [h, hp]
      · cases hp : p c with
        | true => simp [withReturns_cons hc, hp, ih]
        | false => simp [withReturns_cons hc, hp]

/-- No line break is in the run. -/
lemma newline_not_mem_takeWhile {p : Char → Bool} (h : p '\n' = false)
    (cs : List Char) : '\n' ∉ cs.takeWhile p := by
  intro hmem
  have hp := List.mem_takeWhile_imp hmem
  rw [h] at hp
  cases hp

lemma takeWhile_withReturns {p : Char → Bool} (hn : p '\n' = false)
    (hr : p '\r' = false) (cs : List Char) :
    (withReturns cs).takeWhile p = cs.takeWhile p := by
  rw [(span_withReturns (hr.trans hn.symm) cs).1,
    withReturns_of_not_mem (newline_not_mem_takeWhile hn cs)]

lemma dropWhile_withReturns {p : Char → Bool} (hn : p '\n' = false)
    (hr : p '\r' = false) (cs : List Char) :
    (withReturns cs).dropWhile p = withReturns (cs.dropWhile p) :=
  (span_withReturns (hr.trans hn.symm) cs).2

/-! ### The readers -/

lemma readBlockComment_cons (h : c = '*' → cs.head? ≠ some '/') :
    readBlockComment (c :: cs)
      = (c :: (readBlockComment cs).1, (readBlockComment cs).2) := by
  rw [readBlockComment]
  rintro ds rfl rfl
  exact h rfl rfl

/-- A block comment goes on over the ends of lines. -/
lemma readBlockComment_withReturns (cs : List Char) :
    readBlockComment (withReturns cs)
      = (withReturns (readBlockComment cs).1,
        withReturns (readBlockComment cs).2) := by
  fun_induction readBlockComment cs with
  | case1 => rfl
  | case2 cs => rfl
  | case3 c cs hc r ih =>
      have hend : c = '*' → cs.head? ≠ some '/' := by
        rintro rfl hhead
        obtain ⟨ds, rfl⟩ := List.head?_eq_some_iff.mp hhead
        exact hc ds rfl rfl
      by_cases hn : c = '\n'
      · subst hn
        rw [withReturns_newline,
          readBlockComment_cons fun h => absurd h (by decide),
          readBlockComment_cons fun h => absurd h (by decide), ih]
        rfl
      · rw [withReturns_cons hn, readBlockComment_cons fun hstar =>
          mt (head?_withReturns_iff (by decide) (by decide)).mp (hend hstar),
          ih]
        exact congrArg (·, withReturns r.2) (withReturns_cons hn r.1).symm

lemma readGroup_cons (depth : Nat) (c : Char) (cs : List Char) :
    readGroup (depth + 1) (c :: cs)
      = (c :: (readGroup (if c = '(' then depth + 2
            else if c = ')' then depth else depth + 1) cs).1,
        (readGroup (if c = '(' then depth + 2
            else if c = ')' then depth else depth + 1) cs).2) := by
  rw [readGroup]

/-- So does a group. -/
lemma readGroup_withReturns (depth : Nat) (cs : List Char) :
    readGroup depth (withReturns cs)
      = (withReturns (readGroup depth cs).1,
        withReturns (readGroup depth cs).2) := by
  fun_induction readGroup depth cs with
  | case1 cs => rw [readGroup, withReturns_nil]
  | case2 depth => rfl
  | case3 depth c cs r ih =>
      by_cases hn : c = '\n'
      · subst hn
        rw [withReturns_newline, readGroup_cons, if_neg (by decide),
          if_neg (by decide), readGroup_cons, ih]
        rfl
      · rw [withReturns_cons hn, readGroup_cons, ih]
        exact congrArg (·, withReturns r.2) (withReturns_cons hn r.1).symm

lemma readArguments_withReturns (cs : List Char) :
    readArguments (withReturns cs)
      = (withReturns (readArguments cs).1,
        withReturns (readArguments cs).2) := by
  obtain ⟨htake, hdrop⟩ := span_withReturns (p := isBlank) (by decide) cs
  by_cases hopen : (cs.dropWhile isBlank).head? = some '('
  · obtain ⟨rest, hrest⟩ := List.head?_eq_some_iff.mp hopen
    rw [hrest, withReturns_cons (by decide)] at hdrop
    rw [readArguments_of_open hrest, readArguments_of_open hdrop, htake,
      readGroup_withReturns, withReturns_append,
      withReturns_cons (by decide)]
  · rw [readArguments_of_not_open hopen, withReturns_nil,
      readArguments_of_not_open]
    rwa [hdrop, ne_eq, head?_withReturns_iff (by decide) (by decide)]

lemma readQuoted_close (quote : Char) (cs : List Char) :
    readQuoted quote (quote :: cs) = ⟨[], [quote], cs⟩ := by
  cases cs with
  | nil => rw [readQuoted, if_pos rfl]
  | cons c cs => rw [readQuoted, if_pos rfl]

lemma readQuoted_cons {quote : Char} (hq : c ≠ quote) (hb : c ≠ '\\')
    (cs : List Char) :
    readQuoted quote (c :: cs)
      = { readQuoted quote cs with
          body := c :: (readQuoted quote cs).body } := by
  cases cs with
  | nil => simp only [readQuoted, if_neg hq]
  | cons d cs => rw [readQuoted, if_neg hq, if_neg hb]

/-- Quoted text within one line is read as it stands. -/
lemma readQuoted_withReturns {quote : Char} (cs : List Char)
    (h : '\n' ∉ (readQuoted quote cs).body) (hquote : quote ≠ '\n') :
    readQuoted quote (withReturns cs)
      = { readQuoted quote cs with
          rest := withReturns (readQuoted quote cs).rest } := by
  fun_induction readQuoted quote cs with
  | case1 => rfl
  | case2 => rw [withReturns_cons hquote, withReturns_nil, readQuoted_close]
  | case3 c hq =>
      have hn : c ≠ '\n' := by
        rintro rfl
        exact h List.mem_cons_self
      rw [withReturns_cons hn, withReturns_nil, readQuoted, if_neg hq]
  | case4 d cs => rw [withReturns_cons hquote, readQuoted_close]
  | case5 d cs r hq ih =>
      rw [List.mem_cons, List.mem_cons, not_or, not_or] at h
      rw [withReturns_cons (by decide), withReturns_cons (Ne.symm h.2.1),
        readQuoted, if_neg hq, if_pos rfl, ih h.2.2]
  | case6 c d cs hq hb r ih =>
      rw [List.mem_cons, not_or] at h
      rw [withReturns_cons (Ne.symm h.1), readQuoted_cons hq hb, ih h.2]

lemma withReturns_ne (ds : List Char) : withReturns cs ≠ '\n' :: ds := by
  intro h
  rcases withReturns_cases cs with ⟨es, rfl, hes⟩ | hhead
  · rw [hes] at h
    exact absurd (List.cons.inj h).1 (by decide)
  · rw [h, List.head?_cons] at hhead
    obtain ⟨es, rfl⟩ := List.head?_eq_some_iff.mp hhead.symm
    exact absurd (List.cons.inj h).1 (by decide)

/-- A directive stops in front of the line feed, and takes the carriage
return in front of that with it. -/
lemma readDirective_withReturns (cs : List Char) (h : '\r' ∉ cs) :
    ∃ ret rest, (ret = [] ∨ ret = ['\r'])
      ∧ withReturns (readDirective cs).rest = ret ++ rest
      ∧ readDirective (withReturns cs)
        = ⟨withReturns (readDirective cs).raw ++ ret,
          (readDirective cs).body ++ ret, rest⟩ := by
  fun_induction readDirective cs with
  | case1 => exact ⟨[], [], .inl rfl, rfl, rfl⟩
  | case2 cs => exact ⟨['\r'], '\n' :: withReturns cs, .inr rfl, rfl, rfl⟩
  | case3 cs r ih =>
      obtain ⟨ret, rest, hret, hrest, hread⟩ := ih (by simp_all)
      refine ⟨ret, rest, hret, hrest, ?_⟩
      rw [withReturns_cons (by decide), withReturns_newline, readDirective,
        hread]
      rfl
  | case4 cs r ih => simp at h
  | case5 c cs hn hb hr r ih =>
      rw [List.mem_cons, not_or] at h
      obtain ⟨ret, rest, hret, hrest, hread⟩ := ih h.2
      refine ⟨ret, rest, hret, hrest, ?_⟩
      rw [withReturns_cons hn, readDirective, hread]
      · show _ = (⟨withReturns (c :: r.raw) ++ ret, c :: r.body ++ ret,
          rest⟩ : DirectiveRest)
        rw [withReturns_cons hn]
        rfl
      · exact hn
      · exact fun ds _ hds => withReturns_ne ds hds
      · rintro ds rfl hds
        rcases withReturns_cases cs with ⟨es, rfl, -⟩ | hhead
        · exact hb es rfl rfl
        · rw [hds, List.head?_cons] at hhead
          exact h.2 (List.mem_of_mem_head? hhead.symm)

lemma directiveText_append (body : List Char) {ret : List Char}
    (h : ret = [] ∨ ret = ['\r']) :
    directiveText (body ++ ret) = directiveText body := by
  rcases h with rfl | rfl
  · rw [List.append_nil]
  · rw [directiveText, List.reverse_append, List.reverse_singleton,
      List.singleton_append, List.dropWhile_cons_of_pos (by decide),
      ← directiveText]

lemma readDigits_withReturns (c : Char) (hn : c ≠ '\n') (cs : List Char) :
    readDigits (c :: withReturns cs)
      = ((readDigits (c :: cs)).1, withReturns (readDigits (c :: cs)).2) := by
  by_cases hx : c = '0' ∧ ∃ x ∈ cs.head?, x = 'x' ∨ x = 'X'
  · obtain ⟨rfl, x, hhead, hx⟩ := hx
    obtain ⟨ds, rfl⟩ := List.head?_eq_some_iff.mp hhead
    have hline : x ≠ '\n' := by
      rcases hx with rfl | rfl <;> decide
    rw [withReturns_cons hline]
    simp only [readDigits, if_pos hx]
    rw [takeWhile_withReturns (by decide) (by decide),
      dropWhile_withReturns (by decide) (by decide)]
  · have hplain : c = '0' → ∀ x ∈ cs.head?, ¬ (x = 'x' ∨ x = 'X') :=
      fun hc x hhead hx' => hx ⟨hc, x, hhead, hx'⟩
    have hplain' : c = '0' → ∀ x ∈ (withReturns cs).head?,
        ¬ (x = 'x' ∨ x = 'X') := by
      intro hc x hhead hx'
      refine hplain hc x ((head?_withReturns_iff ?_ ?_).mp hhead) hx' <;>
        rcases hx' with rfl | rfl <;> decide
    rw [readDigits_of_not_hexadecimal hplain,
      readDigits_of_not_hexadecimal hplain', ← withReturns_cons hn,
      takeWhile_withReturns (by decide) (by decide),
      dropWhile_withReturns (by decide) (by decide)]

lemma readNumber_withReturns (c : Char) (hn : c ≠ '\n') (cs : List Char) :
    readNumber (c :: withReturns cs)
      = ((readNumber (c :: cs)).1, withReturns (readNumber (c :: cs)).2) := by
  rw [readNumber, readDigits_withReturns c hn]
  dsimp only
  rw [takeWhile_withReturns (by decide) (by decide),
    dropWhile_withReturns (by decide) (by decide)]
  rfl

/-! ### One lexeme -/

/-- What is read of a text and of the same text with carriage returns: the
same token, and behind it the same text but for blanks at its start. -/
structure ReadAlike (r r' : Lexeme × List Char) : Prop where
  token : r'.1.token? = r.1.token?
  rest : ∃ ret, (∀ c ∈ ret, isBlank c = true) ∧ withReturns r.2 = ret ++ r'.2

lemma ReadAlike.of_eq {r r' : Lexeme × List Char}
    (htoken : r'.1.token? = r.1.token?) (hrest : r'.2 = withReturns r.2) :
    ReadAlike r r' :=
  ⟨htoken, [], by simp, hrest.symm⟩

/-- No token is a quote that stands alone, and quoted text has no line
breaks in it. -/
def Lexeme.OnOneLine (l : Lexeme) : Prop :=
  ∀ face ∈ l.token?, face ≠ (.unknown, "'")
    ∧ (face.1 = .string ∨ face.1 = .char → '\n' ∉ face.2.toList)

lemma readAlike_quotedLexeme {kind : TokenKind} {before : List Char}
    {quote : Char} (hkind : kind = .string ∨ kind = .char)
    (hquote : quote ≠ '\n')
    (h : (quotedLexeme kind before quote cs).1.OnOneLine) :
    ReadAlike (quotedLexeme kind before quote cs)
      (quotedLexeme kind before quote (withReturns cs)) := by
  have hbody : '\n' ∉ (readQuoted quote cs).body := by
    have hvalue := (h _ rfl).2 hkind
    rwa [String.toList_ofList] at hvalue
  rw [quotedLexeme, quotedLexeme, readQuoted_withReturns cs hbody hquote]
  exact .of_eq rfl rfl

lemma readAlike_readAt (h : (readAt cs).1.OnOneLine) :
    ReadAlike (readAt cs) (readAt (withReturns cs)) := by
  cases cs with
  | nil => exact .of_eq rfl rfl
  | cons d ds =>
      by_cases hn : d = '\n'
      · subst hn
        exact .of_eq rfl rfl
      rw [withReturns_cons hn]
      by_cases hstring : d = '"'
      · simp only [readAt, if_pos hstring] at h ⊢
        exact readAlike_quotedLexeme (.inl rfl) (by decide) h
      by_cases hname : isNameStart d = true
      · simp only [readAt, if_neg hstring, if_pos hname,
          ← withReturns_cons hn]
        rw [takeWhile_withReturns (by decide) (by decide),
          dropWhile_withReturns (by decide) (by decide)]
        exact .of_eq rfl rfl
      · simp only [readAt, if_neg hstring, if_neg hname]
        exact .of_eq rfl (withReturns_cons hn ds).symm

lemma readAlike_readWord (hn : c ≠ '\n') :
    ReadAlike (readWord rules (c :: cs))
      (readWord rules (c :: withReturns cs)) := by
  rw [readWord, readWord, ← withReturns_cons hn]
  dsimp only
  rw [takeWhile_withReturns (by decide) (by decide),
    dropWhile_withReturns (by decide) (by decide), readArguments_withReturns]
  split <;> exact .of_eq rfl rfl

/-- Two points are in front of the first line break. -/
lemma points_of_withReturns (h : ['.', '.'] <+: withReturns cs) :
    ['.', '.'] <+: cs := by
  obtain ⟨rest, hrest⟩ := h
  have hfirst : cs.head? = some '.' :=
    (head?_withReturns_iff (by decide) (by decide)).mp (by rw [← hrest]; rfl)
  obtain ⟨ds, rfl⟩ := List.head?_eq_some_iff.mp hfirst
  rw [withReturns_cons (by decide)] at hrest
  have hsecond : ds.head? = some '.' :=
    (head?_withReturns_iff (by decide) (by decide)).mp
      (by rw [← (List.cons.inj hrest).2]; rfl)
  obtain ⟨es, rfl⟩ := List.head?_eq_some_iff.mp hsecond
  exact ⟨es, rfl⟩

lemma readAlike_readPunctuation (c : Char) (cs : List Char) :
    ReadAlike (readPunctuation c cs)
      (readPunctuation c (withReturns cs)) := by
  rcases readPunctuation_cases c cs with
    ⟨rfl, rest, rfl, hread⟩ | ⟨hpoints, hread⟩
  · rw [hread, withReturns_cons (by decide), withReturns_cons (by decide)]
    exact .of_eq rfl rfl
  · rcases readPunctuation_cases c (withReturns cs) with
      ⟨rfl, rest, hrest, -⟩ | ⟨-, hread'⟩
    · exact absurd ⟨rfl, points_of_withReturns ⟨rest, hrest.symm⟩⟩ hpoints
    · rw [hread, hread']
      exact .of_eq rfl rfl

lemma isBlank_of_mem_return : ∀ c ∈ ['\r'], isBlank c = true :=
  List.forall_mem_singleton.mpr (by decide)

/-- A comment in one line takes the carriage return at its end with it. -/
lemma dropWhile_line_withReturns (cs : List Char) :
    ∃ ret, (∀ c ∈ ret, isBlank c = true)
      ∧ withReturns (cs.dropWhile (· ≠ '\n'))
        = ret ++ (withReturns cs).dropWhile (· ≠ '\n') := by
  induction cs with
  | nil => exact ⟨[], by simp, rfl⟩
  | cons c cs ih =>
      by_cases hn : c = '\n'
      · subst hn
        exact ⟨['\r'], isBlank_of_mem_return, rfl⟩
      · rw [withReturns_cons hn, List.dropWhile_cons_of_pos (by simpa using hn),
          List.dropWhile_cons_of_pos (by simpa using hn)]
        exact ih

lemma readAlike_directive (hn : c ≠ '\n') (h : '\r' ∉ c :: cs) :
    ReadAlike
      (⟨(readDirective (c :: cs)).raw,
        some (.directive, directiveText (readDirective (c :: cs)).body)⟩,
        (readDirective (c :: cs)).rest)
      (⟨(readDirective (c :: withReturns cs)).raw,
        some (.directive,
          directiveText (readDirective (c :: withReturns cs)).body)⟩,
        (readDirective (c :: withReturns cs)).rest) := by
  obtain ⟨ret, rest, hret, hrest, hread⟩ :=
    readDirective_withReturns (c :: cs) h
  rw [withReturns_cons hn] at hread
  rw [hread]
  refine ⟨?_, ret, ?_, hrest⟩
  · dsimp only
    rw [directiveText_append _ hret]
  · rcases hret with rfl | rfl
    · exact List.forall_mem_nil _
    · exact isBlank_of_mem_return

/-- Both texts go the same way at a branch. -/
lemma readAlike_ite {p q : Prop} [Decidable p] [Decidable q]
    {r s r' s' : Lexeme × List Char} (hpq : q ↔ p)
    (h : (if p then r else s).1.OnOneLine)
    (hr : p → r.1.OnOneLine → ReadAlike r r')
    (hs : ¬ p → s.1.OnOneLine → ReadAlike s s') :
    ReadAlike (if p then r else s) (if q then r' else s') := by
  by_cases hp : p
  · rw [if_pos hp] at h ⊢
    rw [if_pos (hpq.mpr hp)]
    exact hr hp h
  · rw [if_neg hp] at h ⊢
    rw [if_neg (mt hpq.mp hp)]
    exact hs hp h

/-- A lexeme that is no blank is read of both texts alike. -/
lemma readAlike_readLexeme (hb : isBlank c = false)
    (hreturn : '\r' ∉ c :: cs)
    (h : (readLexeme rules c cs).1.OnOneLine) :
    ReadAlike (readLexeme rules c cs)
      (readLexeme rules c (withReturns cs)) := by
  have hn : c ≠ '\n' := by
    rintro rfl
    exact absurd hb (by decide)
  have hslash : (withReturns cs).head? = some '/' ↔ cs.head? = some '/' :=
    head?_withReturns_iff (by decide) (by decide)
  have hstar : (withReturns cs).head? = some '*' ↔ cs.head? = some '*' :=
    head?_withReturns_iff (by decide) (by decide)
  have hdigit : (withReturns cs).head?.any isDigit = cs.head?.any isDigit :=
    any_head?_withReturns (by decide)
  unfold readLexeme at h ⊢
  simp only [hb, hslash, hstar, hdigit, Bool.false_eq_true, if_false]
    at h ⊢
  refine readAlike_ite Iff.rfl h
    (fun _ _ => ⟨rfl, dropWhile_line_withReturns cs⟩) fun _ h => ?_
  refine readAlike_ite Iff.rfl h (fun hblock _ => ?_) fun _ h => ?_
  · obtain ⟨ds, rfl⟩ := List.head?_eq_some_iff.mp hblock.2
    rw [withReturns_cons (by decide), List.tail_cons, List.tail_cons,
      readBlockComment_withReturns]
    exact .of_eq rfl rfl
  refine readAlike_ite Iff.rfl h
    (fun _ _ => readAlike_directive hn hreturn) fun _ h => ?_
  refine readAlike_ite Iff.rfl h (fun _ h => readAlike_readAt h) fun _ h => ?_
  refine readAlike_ite Iff.rfl h
    (fun _ h => readAlike_quotedLexeme (.inl rfl) (by decide) h) fun _ h => ?_
  -- a quote near the end would stand alone
  have hlong : c = '\'' → 2 ≤ cs.length := by
    rintro rfl
    by_contra hshort
    have hnumber : ¬ (isDigit '\'' = true
        ∨ ('\'' = '.' ∧ cs.head?.any isDigit = true)) := by
      rintro (hc | hc)
      · exact absurd hc (by decide)
      · exact absurd hc.1 (by decide)
    rw [if_neg (fun hc => hshort hc.2), if_neg hnumber,
      if_neg (by decide)] at h
    exact (h _ rfl).1 rfl
  have hchar : (c = '\'' ∧ 2 ≤ (withReturns cs).length)
      ↔ (c = '\'' ∧ 2 ≤ cs.length) :=
    and_congr_right fun hc => iff_of_true
      (Nat.le_trans (hlong hc) (length_le_withReturns cs)) (hlong hc)
  refine readAlike_ite hchar h
    (fun _ h => readAlike_quotedLexeme (.inr rfl) (by decide) h) fun _ h => ?_
  refine readAlike_ite Iff.rfl h (fun _ _ => ?_) fun _ h => ?_
  · rw [readNumber_withReturns c hn]
    exact .of_eq rfl rfl
  exact readAlike_ite Iff.rfl h (fun _ _ => readAlike_readWord hn)
    fun _ _ => readAlike_readPunctuation c cs

/-! ### All tokens -/

/-- The tokens of a text that begins at a place. -/
def tokensFrom (rules : MacroRules) (p : Position) (cs : List Char) :
    List Token :=
  placeTokens p (lexemes rules cs)

lemma tokensFrom_cons (p : Position) (c : Char) (cs : List Char) :
    tokensFrom rules p (c :: cs)
      = (readLexeme rules c cs).1.placed p
        ++ tokensFrom rules (p.after (readLexeme rules c cs).1.raw)
          (readLexeme rules c cs).2 := by
  rw [tokensFrom, lexemes, placeTokens, tokensFrom]

/-- A blank only moves the place. -/
lemma tokensFrom_blank (p : Position) (hc : isBlank c = true) :
    tokensFrom rules p (c :: cs) = tokensFrom rules (p.next c) cs := by
  have hrun : ∀ (p : Position) (d : Char) (ds : List Char),
      isBlank d = true → tokensFrom rules p (d :: ds)
        = tokensFrom rules (p.after (d :: ds.takeWhile isBlank))
          (ds.dropWhile isBlank) := by
    intro p d ds hd
    rw [tokensFrom_cons, readLexeme, if_pos hd]
    rfl
  rw [hrun p c cs hc]
  cases cs with
  | nil => rfl
  | cons d ds =>
      by_cases hd : isBlank d = true
      · rw [hrun _ d ds hd, List.takeWhile_cons_of_pos hd,
          List.dropWhile_cons_of_pos hd]
        rfl
      · rw [List.takeWhile_cons_of_neg hd, List.dropWhile_cons_of_neg hd]
        rfl

lemma tokensFrom_blanks (p : Position) {bs : List Char}
    (h : ∀ c ∈ bs, isBlank c = true) (cs : List Char) :
    tokensFrom rules p (bs ++ cs) = tokensFrom rules (p.after bs) cs := by
  induction bs generalizing p with
  | nil => rfl
  | cons b bs ih =>
      rw [List.forall_mem_cons] at h
      rw [List.cons_append, tokensFrom_blank p h.1, ih _ h.2]
      rfl

/-- The place behind a line does not tell how it ends. -/
lemma after_withReturns (p : Position) (cs : List Char) :
    p.after (withReturns cs) = p.after cs := by
  induction cs generalizing p with
  | nil => rfl
  | cons c cs ih =>
      by_cases hn : c = '\n'
      · subst hn
        exact ih ⟨p.line + 1, 1⟩
      · rw [withReturns_cons hn]
        exact ih (p.next c)

/-- The tokens of a text do not tell how its lines end. -/
theorem tokensFrom_withReturns (p : Position) (cs : List Char)
    (hreturn : '\r' ∉ cs) (h : ∀ l ∈ lexemes rules cs, l.OnOneLine) :
    tokensFrom rules p (withReturns cs) = tokensFrom rules p cs := by
  fun_induction lexemes rules cs generalizing p with
  | case1 => rfl
  | case2 c cs ih =>
      rw [List.forall_mem_cons] at h
      have happ := readLexeme_append rules c cs
      have hrest : '\r' ∉ (readLexeme rules c cs).2 := fun hmem =>
        hreturn (happ ▸ List.mem_append_right _ hmem)
      have ih := fun p => ih p hrest h.2
      by_cases hb : isBlank c = true
      · -- the run of blanks ends at the same place in both texts
        have hread := readLexeme_blank rules hb cs
        rw [hread] at ih happ
        have hblank : ∀ d ∈ withReturns (c :: cs.takeWhile isBlank),
            isBlank d = true := by
          intro d hd
          rcases mem_withReturns hd with rfl | hd
          · decide
          · rcases List.mem_cons.mp hd with rfl | hd
            · exact hb
            · exact List.mem_takeWhile_imp hd
        calc tokensFrom rules p (withReturns (c :: cs))
            = tokensFrom rules p (withReturns (c :: cs.takeWhile isBlank)
                ++ withReturns (cs.dropWhile isBlank)) := by
              rw [← withReturns_append, happ]
          _ = tokensFrom rules (p.after (c :: cs.takeWhile isBlank))
                (cs.dropWhile isBlank) := by
              rw [tokensFrom_blanks p hblank, after_withReturns, ih]
          _ = tokensFrom rules p (c :: cs) := by
              rw [tokensFrom_cons, hread]
              rfl
      · have hn : c ≠ '\n' := by
          rintro rfl
          exact hb (by decide)
        obtain ⟨htoken, ret, hret, hbehind⟩ :=
          readAlike_readLexeme (Bool.eq_false_iff.mpr hb) hreturn h.1
        have happ' := readLexeme_append rules c (withReturns cs)
        have hraw : (readLexeme rules c (withReturns cs)).1.raw
            = withReturns (readLexeme rules c cs).1.raw ++ ret := by
          rw [← withReturns_cons hn, ← happ, withReturns_append, hbehind,
            ← List.append_assoc] at happ'
          exact List.append_cancel_right happ'
        have hplaced : (readLexeme rules c (withReturns cs)).1.placed p
            = (readLexeme rules c cs).1.placed p := by
          rw [Lexeme.placed, htoken, Lexeme.placed]
        rw [withReturns_cons hn, tokensFrom_cons, tokensFrom_cons, hplaced,
          hraw, Position.after_append, after_withReturns,
          ← tokensFrom_blanks _ hret, ← hbehind, ih]

/-- **Line ends do not matter.**  A text without carriage returns, in whose
tokens no quoted text goes over a line and no quote stands alone, has the
same tokens, at the same places, when each line feed has a carriage return
in front of it; and so it declares the same. -/
theorem tokenize_withReturns (rules : MacroRules) (text : String)
    (hreturn : '\r' ∉ text.toList)
    (hline : ∀ t ∈ tokenize rules text,
      t.kind = .string ∨ t.kind = .char → '\n' ∉ t.value.toList)
    (hquote : ∀ t ∈ tokenize rules text, t.face ≠ (.unknown, "'")) :
    let other := String.ofList (withReturns text.toList)
    tokenize rules other = tokenize rules text
      ∧ ∀ file, readHeader rules file other = readHeader rules file text := by
  intro other
  have hlexemes : ∀ l ∈ lexemes rules text.toList, l.OnOneLine := by
    intro l hl face hface
    have hmem : face ∈ (tokenize rules text).map Token.face := by
      rw [map_face_tokenize, facesOf]
      exact List.mem_append_left _ (List.mem_filterMap.mpr ⟨l, hl, hface⟩)
    obtain ⟨t, ht, rfl⟩ := List.mem_map.mp hmem
    exact ⟨hquote t ht, hline t ht⟩
  have htokens : tokenize rules other = tokenize rules text := by
    rw [tokenize, String.toList_ofList]
    exact tokensFrom_withReturns {} text.toList hreturn hlexemes
  refine ⟨htokens, fun file => ?_⟩
  rw [readHeader, htokens, ← readHeader]

/-- A directive over two lines, a macro whose arguments go over a line, and
comments of both kinds. -/
theorem tokenize_withReturns_queue :
    let text := "#if A \\\n2\n@class B/*\n*/NS_X(\n1); // c\n"
    let other := "#if A \\\r\n2\r\n@class B/*\r\n*/NS_X(\r\n1); // c\r\n"
    '\r' ∉ text.toList ∧ (tokenize {} text).length = 5
      ∧ String.ofList (withReturns text.toList) = other
      ∧ tokenize {} other = tokenize {} text
      ∧ ∀ file, readHeader {} file other = readHeader {} file text := by
  intro text other
  have hreturn : '\r' ∉ text.toList := by decide +kernel
  have hother : String.ofList (withReturns text.toList) = other := by
    decide +kernel
  have h := tokenize_withReturns {} text hreturn (by decide +kernel)
    (by decide +kernel)
  rw [hother] at h
  exact ⟨hreturn, by decide +kernel, hother, h⟩

end HeaderBinding
