/-
A vendor macro that is called in a text leaves the tokens of the text as
they are.

* `closesParens`: the parentheses among the characters of a text close each
  other; `readGroup_append_of_closes`: that is what the reader of arguments
  goes by;
* `Lexeme.IsOpaque`: a lexeme whose characters are not read as tokens;
* `MacroArguments`: a text that can stand as arguments, with the
  parentheses among its tokens closed; `MacroArguments.closesParens`: so are
  those among its characters, if they are in every opaque lexeme;
* `TokenBegins`: a token begins between two texts, or the text ends there;
* `facesOf_insert`: the tokens on both sides of that place stay as they are;
* `tokenize_insert_macro`: so a macro that is called there leaves no trace.
-/
import HeaderBinding.Proofs.Cursor.Brackets
import HeaderBinding.Proofs.Token.Append
import HeaderBinding.Proofs.Token.Joined
import HeaderBinding.Proofs.Text.Ascii
import HeaderBinding.Proofs.Text.Words

namespace HeaderBinding

variable {rules : MacroRules}

/-! ### Parentheses among characters -/

/-- The characters close the parentheses that they open, and as many more
as are open before. -/
def closesParens : Nat → List Char → Bool
  | depth, [] => depth = 0
  | depth, c :: cs =>
    if c = '(' then closesParens (depth + 1) cs
    else if c = ')' then 0 < depth && closesParens (depth - 1) cs
    else closesParens depth cs

/-- Behind characters that close what is open, others go on at the depth
outside. -/
lemma closesParens_append {depth : Nat} {as : List Char}
    (h : closesParens depth as = true) (more : Nat) (bs : List Char) :
    closesParens (depth + more) (as ++ bs) = closesParens more bs := by
  induction as generalizing depth with
  | nil =>
      obtain rfl : depth = 0 := by simpa [closesParens] using h
      rw [Nat.zero_add, List.nil_append]
  | cons c as ih =>
      rw [closesParens] at h
      rw [List.cons_append, closesParens]
      split at h
      · rename_i hc
        rw [if_pos hc, Nat.add_right_comm, ih h]
      rename_i hopen
      rw [if_neg hopen]
      split at h
      · rename_i hc
        rw [Bool.and_eq_true, decide_eq_true_eq] at h
        rw [if_pos hc, decide_eq_true (by omega), Bool.true_and,
          show depth + more - 1 = depth - 1 + more by omega, ih h.2]
      · rename_i hc
        rw [if_neg hc, ih h]

lemma closesParens_of_not_mem {cs : List Char} (ho : '(' ∉ cs)
    (hc : ')' ∉ cs) : closesParens 0 cs = true := by
  induction cs with
  | nil => rfl
  | cons c cs ih =>
      rw [List.mem_cons, not_or] at ho hc
      rw [closesParens, if_neg (Ne.symm ho.1), if_neg (Ne.symm hc.1),
        ih ho.2 hc.2]

/-- Two such texts, one behind the other. -/
lemma closesParens_append_of {as bs : List Char}
    (ha : closesParens 0 as = true) (hb : closesParens 0 bs = true) :
    closesParens 0 (as ++ bs) = true :=
  (closesParens_append ha 0 bs).trans hb

lemma closesParens_of_forall {p : Char → Bool} {cs : List Char}
    (hcs : ∀ c ∈ cs, p c = true) (ho : p '(' = false) (hc : p ')' = false) :
    closesParens 0 cs = true :=
  closesParens_of_not_mem (fun h => absurd (hcs _ h) (by simp [ho]))
    fun h => absurd (hcs _ h) (by simp [hc])

/-- Counting says the same: no prefix closes more than is open, and in the
end nothing is left open. -/
lemma closesParens_of_count {depth : Nat} {cs : List Char}
    (hcount : cs.count '(' + depth = cs.count ')')
    (hle : ∀ p, p <+: cs → p.count ')' ≤ p.count '(' + depth) :
    closesParens depth cs = true := by
  induction cs generalizing depth with
  | nil => simpa [closesParens] using hcount
  | cons c cs ih =>
      have hmore : ∀ p, p <+: cs →
          (c :: p).count ')' ≤ (c :: p).count '(' + depth :=
        fun p hp => hle _ (List.cons_prefix_cons.mpr ⟨rfl, hp⟩)
      rw [closesParens]
      split
      · subst c
        simp only [List.count_cons_self,
          List.count_cons_of_ne (show '(' ≠ ')' by decide)] at hcount hmore
        exact ih (by omega) fun p hp => by have := hmore p hp; omega
      split
      · subst c
        simp only [List.count_cons_self,
          List.count_cons_of_ne (show ')' ≠ '(' by decide)] at hcount hmore
        have hpos := hmore [] List.nil_prefix
        simp only [List.count_nil] at hpos
        rw [decide_eq_true (by omega), Bool.true_and]
        exact ih (by omega) fun p hp => by have := hmore p hp; omega
      · rename_i ho hc
        simp only [List.count_cons_of_ne ho, List.count_cons_of_ne hc]
          at hcount hmore
        exact ih hcount hmore

/-- The reader of arguments goes over characters that close what they
open. -/
theorem readGroup_append_of_closes {depth : Nat} {cs : List Char}
    (h : closesParens depth cs = true) (more : Nat) (after : List Char) :
    readGroup (depth + (more + 1)) (cs ++ after)
      = (cs ++ (readGroup (more + 1) after).1,
        (readGroup (more + 1) after).2) := by
  induction cs generalizing depth with
  | nil =>
      obtain rfl : depth = 0 := by simpa [closesParens] using h
      rw [Nat.zero_add, List.nil_append, List.nil_append]
  | cons c cs ih =>
      rw [closesParens] at h
      rw [List.cons_append, ← Nat.add_assoc, readGroup]
      split at h
      · rename_i hc
        rw [if_pos hc, show depth + more + 2 = depth + 1 + (more + 1) by omega,
          ih h]
        rfl
      rename_i hopen
      rw [if_neg hopen]
      split at h
      · rename_i hc
        rw [Bool.and_eq_true, decide_eq_true_eq] at h
        rw [if_pos hc, show depth + more = depth - 1 + (more + 1) by omega,
          ih h.2]
        rfl
      · rename_i hc
        rw [if_neg hc, Nat.add_assoc, ih h]
        rfl

/-! ### Arguments -/

/-- A lexeme whose characters make no tokens of their own: quoted text, a
directive or a comment. -/
def Lexeme.IsOpaque (l : Lexeme) : Prop :=
  (∃ f ∈ l.token?, f.1 ∈ [TokenKind.string, .char, .directive])
    ∨ (l.token? = none ∧ l.raw.head? = some '/')

instance : DecidablePred Lexeme.IsOpaque := fun _ =>
  inferInstanceAs (Decidable (_ ∨ _))

/-- The parenthesis that ends arguments. -/
def closingLexeme : Lexeme :=
  ⟨[')'], some (.closeParen, ")")⟩

/-- The last token is complete: it does not run into a parenthesis that
stands behind it. -/
def Complete (rules : MacroRules) (text : String) : Prop :=
  lexemes rules (text.toList ++ [')'])
    = lexemes rules text.toList ++ [closingLexeme]

instance (rules : MacroRules) (text : String) :
    Decidable (Complete rules text) :=
  inferInstanceAs (Decidable (_ = _))

/-- Complete tokens with properly nested parentheses. -/
structure MacroArguments (rules : MacroRules) (g : String) : Prop where
  complete : Complete rules g
  nested : isNested parentheses [] (tokenize rules g).dropLast = true

lemma Group.closesParens {span : List Char} (h : Group span) :
    closesParens 0 span = true := by
  obtain ⟨-, hcount, hlt⟩ := h
  refine closesParens_of_count hcount fun p hp => ?_
  by_cases hnil : p = []
  · simp [hnil]
  by_cases hall : p = span
  · rw [hall, hcount, Nat.add_zero]
  · exact (hlt p hp hnil hall).le

/-- A stretch without a token closes its parentheses, if it is no comment
and something follows it. -/
lemma Filler.closesParens {span rest : List Char}
    (h : Filler rules GroupToEnd span rest) (hslash : span.head? ≠ some '/')
    (hrest : rest ≠ []) : closesParens 0 span = true := by
  cases h with
  | blanks hb => exact closesParens_of_forall hb (by decide) (by decide)
  | lineComment => exact absurd rfl hslash
  | blockComment => exact absurd rfl hslash
  | openComment => exact absurd rfl hslash
  | word hw _ => exact closesParens_of_forall hw.2.1 (by decide) (by decide)
  | call hw _ hb hg =>
      have hgroup := hg.resolve_right fun hopen => hrest hopen.1
      exact closesParens_append_of
        (closesParens_of_forall hw.2.1 (by decide) (by decide))
        (closesParens_append_of
          (closesParens_of_forall hb (by decide) (by decide))
          hgroup.closesParens)

lemma Spells.toList_eq {kind : TokenKind} {value : String}
    {span rest : List Char} (h : Spells kind value span rest)
    (hk : kind ∉ [TokenKind.string, .char, .directive]) :
    span = value.toList := by
  cases h with
  | plain => exact String.toList_ofList.symm
  | string => exact absurd (by decide) hk
  | char => exact absurd (by decide) hk
  | directive => exact absurd (by decide) hk

/-- A token that is read as it stands is a parenthesis, or has none in
it. -/
lemma Readable.paren_cases {f : Face} (h : Readable rules f) :
    ('(' ∉ f.2.toList ∧ ')' ∉ f.2.toList ∧ f.1 ≠ .openParen
        ∧ f.1 ≠ .closeParen)
      ∨ (f.2.toList = ['('] ∧ f.1 = .openParen)
      ∨ (f.2.toList = [')'] ∧ f.1 = .closeParen) := by
  by_cases ho : '(' ∈ f.2.toList
  · exact .inr (.inl (Shape.eq_mark h (by decide) ho))
  by_cases hc : ')' ∈ f.2.toList
  · exact .inr (.inr (Shape.eq_mark h (by decide) hc))
  have hmark : ∀ kind ∈ markKinds, f.1 = kind →
      f.2.toList = kind.label.toList := by
    rintro kind hkind rfl
    rw [h.eq_label hkind]
  refine .inl ⟨ho, hc, fun hk => ho ?_, fun hk => hc ?_⟩
  · rw [hmark _ (by decide) hk]
    decide
  · rw [hmark _ (by decide) hk]
    decide

/-- The lexeme is a parenthesis, or closes those that it opens: its
characters count as much as its token does. -/
def Lexeme.CountsAlike (l : Lexeme) : Prop :=
  (closesParens 0 l.raw = true
      ∧ ∀ f ∈ l.token?, f.1 ≠ .openParen ∧ f.1 ≠ .closeParen)
    ∨ (l.raw = ['('] ∧ ∃ v, l.token? = some (.openParen, v))
    ∨ (l.raw = [')'] ∧ ∃ v, l.token? = some (.closeParen, v))

/-- A lexeme with something behind it counts alike, if it is not opaque or
closes what it opens. -/
lemma countsAlike_of_lexemes_eq {cs : List Char} {before after : List Lexeme} {l : Lexeme}
    (h : lexemes rules cs = before ++ l :: after)
    (hafter : after.flatMap Lexeme.raw ≠ [])
    (hclosed : l.IsOpaque → closesParens 0 l.raw = true) :
    l.CountsAlike := by
  obtain ⟨-, hright⟩ := right_of_lexemes_eq h
  by_cases hop : l.IsOpaque
  · refine .inl ⟨hclosed hop, fun f hf => ?_⟩
    rcases hop with ⟨g, hg, hkind⟩ | ⟨hnone, -⟩
    · obtain rfl : f = g := Option.some.inj (hf.symm.trans hg)
      constructor <;> rintro hk <;> exact absurd (hk ▸ hkind) (by decide)
    · rw [hnone] at hf
      exact nomatch hf
  have hplain : ∀ f ∈ l.token?,
      f.1 ∉ [TokenKind.string, .char, .directive] :=
    fun f hf hk => hop (.inl ⟨f, hf, hk⟩)
  have hslash : l.token? = none → l.raw.head? ≠ some '/' :=
    fun hnone hs => hop (.inr ⟨hnone, hs⟩)
  unfold Lexeme.CountsAlike
  cases htoken : l.token? with
  | none =>
      rw [Lexeme.Right, htoken] at hright
      exact .inl ⟨hright.closesParens (hslash htoken) hafter,
        fun f hf => nomatch hf⟩
  | some f =>
      rw [Lexeme.Right, htoken] at hright
      have hkind := hplain f htoken
      have hraw : l.raw = f.2.toList := hright.toList_eq hkind
      by_cases hquote : f = (.unknown, "'")
      · rw [hraw, hquote]
        exact .inl ⟨by decide, fun g hg => Option.some.inj hg ▸ by decide⟩
      have hmem : f ∈ facesOf rules cs :=
        List.mem_filterMap.mpr ⟨l, by simp [h], htoken⟩
      rw [hraw]
      rcases (readable_of_mem_facesOf ⟨hkind, hquote⟩ hmem).paren_cases
        with ⟨ho, hc, hk⟩ | ⟨htext, hk⟩ | ⟨htext, hk⟩
      · exact .inl ⟨closesParens_of_not_mem ho hc,
          fun g hg => Option.some.inj hg ▸ hk⟩
      · exact .inr (.inl ⟨htext, f.2, congrArg some (Prod.ext hk rfl)⟩)
      · exact .inr (.inr ⟨htext, f.2, congrArg some (Prod.ext hk rfl)⟩)

/-- Lexemes that count alike and whose tokens are properly nested close
their parentheses as characters, too. -/
lemma closesParens_flatMap {ls : List Lexeme} {due : List TokenKind}
    {p : Position}
    (hall : ∀ l ∈ ls, l.CountsAlike)
    (hnested : isNested parentheses due (placeTokens p ls).dropLast = true) :
    closesParens (due.count .closeParen) (ls.flatMap Lexeme.raw) = true := by
  induction ls generalizing due p with
  | nil =>
      obtain rfl : due = [] := List.isEmpty_iff.mp hnested
      rfl
  | cons l ls ih =>
      obtain ⟨hl, hls⟩ := List.forall_mem_cons.mp hall
      rw [placeTokens, List.dropLast_append_of_ne_nil
        (placeTokens_ne_nil _ _), Lexeme.placed] at hnested
      rw [List.flatMap_cons]
      rcases hl with ⟨hcloses, hk⟩ | ⟨hraw, v, htoken⟩ | ⟨hraw, v, htoken⟩
      · have hgo := closesParens_append hcloses (due.count .closeParen)
          (ls.flatMap Lexeme.raw)
        rw [Nat.zero_add] at hgo
        rw [hgo]
        cases htoken : l.token? with
        | none =>
            rw [htoken] at hnested
            exact ih hls hnested
        | some f =>
            obtain ⟨ho, hc⟩ := hk f htoken
            rw [htoken, List.singleton_append, isNested,
              Bool.and_eq_true] at hnested
            have hrest := ih hls hnested.2
            rwa [pair_paren.count_dueBehind hnested.1, if_neg ho,
              if_neg hc] at hrest
      · rw [htoken, List.singleton_append, isNested,
          Bool.and_eq_true] at hnested
        have hrest := ih hls hnested.2
        rw [pair_paren.count_dueBehind hnested.1, if_pos rfl] at hrest
        rw [hraw, List.singleton_append, closesParens, if_pos rfl, hrest]
      · rw [htoken, List.singleton_append, isNested,
          Bool.and_eq_true] at hnested
        have hrest := ih hls hnested.2
        have hpos := pair_paren.count_pos hnested.1 rfl
        rw [pair_paren.count_dueBehind hnested.1, if_neg (by simp),
          if_pos rfl] at hrest
        rw [hraw, List.singleton_append, closesParens, if_neg (by decide),
          if_pos rfl, hrest, decide_eq_true hpos, Bool.true_and]

/-- Arguments close the parentheses among their characters, if each opaque
lexeme does. -/
theorem MacroArguments.closesParens {g : String}
    (h : MacroArguments rules g)
    (hclosed : ∀ l ∈ lexemes rules g.toList, l.IsOpaque →
      closesParens 0 l.raw = true) : closesParens 0 g.toList = true := by
  have halike : ∀ l ∈ lexemes rules g.toList, l.CountsAlike := by
    intro l hl
    obtain ⟨before, after, hsplit⟩ := List.append_of_mem hl
    have hcomplete : lexemes rules (g.toList ++ [')']) = _ := h.complete
    rw [hsplit, List.append_assoc, List.cons_append] at hcomplete
    exact countsAlike_of_lexemes_eq hcomplete (by simp [closingLexeme]) (hclosed l hl)
  have hflat := closesParens_flatMap halike h.nested
  rwa [lexemes_flatMap] at hflat

/-! ### Vendor macros -/

/-- A name that is left out with its arguments because it looks like a
vendor macro. -/
structure VendorMacro (rules : MacroRules) (name : String) : Prop where
  start : ∃ c ∈ name.toList.head?, isNameStart c = true
  likely : rules.isLikelyMacro name = true
  not_extern : rules.isExternMacro name = false
  not_init : saysInitUnavailable name = false

/-- All letters come behind the digits. -/
lemma le_toNat_of_isAlpha {c : Char} (h : c.isAlpha = true) :
    65 ≤ c.toNat := by
  have hcases : c.isUpper = true ∨ c.isLower = true :=
    (Bool.or_eq_true _ _).mp h
  rcases hcases with hupper | hlower
  · exact (toNat_of_isUpper hupper).1
  · have ha := of_decide_eq_true ((Bool.and_eq_true _ _).mp hlower).1
    exact Nat.le_trans (by decide) (UInt32.le_iff_toNat_le.mp ha)

/-- Vendor macros are written in ASCII. -/
lemma macroChar_cases {c : Char} (h : isMacroChar c = true) :
    c.toNat < 128 ∧ (c = '_' ∨ c.isUpper = true ∨ c.isDigit = true) := by
  have hcases : c = '_' ∨ c.isUpper = true ∨ c.isDigit = true := by
    simpa [isMacroChar, or_assoc] using h
  refine ⟨?_, hcases⟩
  rcases hcases with rfl | hupper | hdigit
  · decide
  · exact Nat.lt_of_le_of_lt (toNat_of_isUpper hupper).2 (by decide)
  · exact Nat.lt_of_le_of_lt (Char.isDigit_iff_toNat.mp hdigit).2 (by decide)

lemma isWordChar_of_isMacroChar {c : Char} (h : isMacroChar c = true) :
    isWordChar c = true := by
  obtain ⟨hlt, rfl | hupper | hdigit⟩ := macroChar_cases h
  · decide
  · have halpha : c.isAlpha = true := (Bool.or_eq_true _ _).mpr (.inl hupper)
    simp [isWordChar, isLetter, hlt, halpha]
  · simp [isWordChar, isNumeral, hlt, hdigit]

lemma isDigit_eq_false_of_isMacroChar {c : Char} (h : isMacroChar c = true)
    (hs : isNameStart c = true) : isDigit c = false := by
  have hlt := (macroChar_cases h).1
  rw [isNameStart, isLetter, if_pos hlt, Bool.or_eq_true, beq_iff_eq] at hs
  rw [isDigit, if_pos hlt]
  by_contra hd
  have hle := (Char.isDigit_iff_toNat.mp (by simpa using hd)).2
  rcases hs with rfl | halpha
  · exact absurd hle (by decide)
  · exact absurd ((le_toNat_of_isAlpha halpha).trans hle) (by decide)

namespace VendorMacro

variable {name : String}

lemma isMacroChar_of_mem (h : VendorMacro rules name) :
    ∀ c ∈ name.toList, isMacroChar c = true := by
  have hlikely := h.likely
  simp only [MacroRules.isLikelyMacro, Bool.and_eq_true,
    List.all_eq_true] at hlikely
  exact hlikely.1.1.2

lemma wordRole_eq (h : VendorMacro rules name) :
    wordRole rules name = .dropWithArguments := by
  have hdropped : name ∉ droppedWords := by
    intro hmem
    have hchars := h.isMacroChar_of_mem
    simp only [droppedWords, List.mem_cons, List.not_mem_nil,
      or_false] at hmem
    rcases hmem with rfl | rfl
    · exact absurd (hchars 'u' (by decide)) (by decide)
    · exact absurd (hchars 'k' (by decide)) (by decide)
  unfold wordRole
  split
  · rfl
  rw [if_neg (by simpa using hdropped), if_neg (by simp [h.not_extern]),
    if_neg (by simp [h.not_init]), if_pos h.likely]

lemma exists_cons (h : VendorMacro rules name) : ∃ c cs,
    name.toList = c :: cs ∧ isNameStart c = true ∧ isBlank c = false := by
  obtain ⟨c, hc, hname⟩ := h.start
  obtain ⟨cs, hcs⟩ := List.head?_eq_some_iff.mp hc
  refine ⟨c, cs, hcs, hname, ?_⟩
  by_contra hb
  have hword := isWordChar_of_isNameStart hname
  rw [isWordChar_of_isBlank (by simpa using hb)] at hword
  exact absurd hword (by decide)

/-- A vendor macro makes no token with its arguments. -/
theorem facesOf_call (h : VendorMacro rules name) {g : List Char}
    (hg : closesParens 0 g = true) (after : List Char) :
    facesOf rules (name.toList ++ '(' :: (g ++ ')' :: after))
      = facesOf rules after := by
  obtain ⟨c, cs, hcs, hname, hblank⟩ := h.exists_cons
  have hword : ∀ d ∈ name.toList, isWordChar d = true :=
    fun d hd => isWordChar_of_isMacroChar (h.isMacroChar_of_mem d hd)
  have hdigit : isDigit c = false :=
    isDigit_eq_false_of_isMacroChar
      (h.isMacroChar_of_mem c (by simp [hcs])) hname
  obtain ⟨hquote, hslash, hpoint⟩ := isNameStart_facts hname
  have hstop : ∀ d ∈ ('(' :: (g ++ ')' :: after)).head?,
      isWordChar d = false := fun d hd => Option.some.inj hd ▸ by decide
  have hargs : readArguments ('(' :: (g ++ ')' :: after))
      = ('(' :: (g ++ [')']), after) := by
    have hend : readGroup 1 (')' :: after) = ([')'], after) := by
      simp [readGroup]
    have hgroup := readGroup_append_of_closes hg 0 (')' :: after)
    rw [Nat.zero_add, hend] at hgroup
    rw [readArguments_of_open (List.dropWhile_cons_of_neg (by decide)),
      List.takeWhile_cons_of_neg (by decide), hgroup]
    rfl
  have hread : readLexeme rules c (cs ++ '(' :: (g ++ ')' :: after))
      = (⟨c :: cs ++ '(' :: (g ++ [')']), none⟩, after) := by
    rw [readLexeme_plain hblank hquote (fun hc => absurd hc hslash),
      if_neg (by simp [hdigit, hpoint]), if_pos hname, ← List.cons_append,
      readWord, ← hcs, takeWhile_append_of_stop hword hstop,
      dropWhile_append_of_stop hword hstop, String.ofList_toList,
      h.wordRole_eq]
    simp only [hargs]
  rw [hcs, List.cons_append, facesOf_of_filler hread]

end VendorMacro

/-! ### Places for a macro -/

/-- A token begins between the texts, or the first one is complete and
nothing follows it. -/
inductive TokenBegins (rules : MacroRules) (a b : String) : Prop
  | token {t : Token} (mem : t ∈ tokenize rules (a ++ b))
      (kind : t.kind ≠ .endOfInput)
      (place : t.At (a ++ b).toList a.toList.length)
  | last (complete : Complete rules a) (nil : b = "")

/-- Some lexemes at the end of a text are those of that part. -/
lemma lexemes_eq_of_append {cs : List Char} {before after : List Lexeme}
    (h : lexemes rules cs = before ++ after) :
    lexemes rules (after.flatMap Lexeme.raw) = after := by
  fun_induction lexemes rules cs generalizing before with
  | case1 =>
      obtain ⟨-, rfl⟩ := List.append_eq_nil_iff.mp h.symm
      rw [List.flatMap_nil, lexemes]
  | case2 c cs ih =>
      cases before with
      | nil =>
          have hall := lexemes_flatMap rules (c :: cs)
          rw [lexemes, h, List.nil_append] at hall
          rw [hall, lexemes, h, List.nil_append]
      | cons l before => exact ih (List.cons.inj h).2

/-- Lexemes in front of a seam make the tokens that they made before. -/
lemma facesOf_seam {a old new : List Char} {before after : List Lexeme}
    (hs : Seam old new) (h : lexemes rules (a ++ old) = before ++ after)
    (ha : before.flatMap Lexeme.raw = a)
    (hquotes : ∀ l ∈ before, l.token? ≠ some (.unknown, "'")) :
    facesOf rules (a ++ new)
      = before.filterMap Lexeme.token? ++ facesOf rules new := by
  induction before generalizing a with
  | nil =>
      subst ha
      rfl
  | cons l before ih =>
      obtain ⟨hquote, hquotes⟩ := List.forall_mem_cons.mp hquotes
      subst ha
      rw [List.flatMap_cons, List.append_assoc] at h ⊢
      obtain ⟨hne, -⟩ := right_of_lexemes_eq (h.trans (List.nil_append _).symm)
      obtain ⟨c, cs, hraw⟩ := List.exists_cons_of_ne_nil hne
      rw [hraw, List.cons_append, lexemes, List.cons_append] at h
      obtain ⟨hl, hls⟩ := List.cons.inj h
      -- what is behind the lexeme is what the others were read from
      have happ := readLexeme_append rules c
        (cs ++ (before.flatMap Lexeme.raw ++ old))
      rw [hl, hraw, List.cons_append, List.cons.injEq] at happ
      have hrest := List.append_cancel_left happ.2
      rw [hrest] at hls
      have hmore := ih hls rfl hquotes
      rw [hraw, List.cons_append]
      by_cases hblank : isBlank c = true
      · have hread := hl
        rw [readLexeme_blank rules hblank] at hread
        have hraw' : c :: (cs ++ (before.flatMap Lexeme.raw ++ old)).takeWhile
            isBlank = c :: cs := (congrArg Lexeme.raw hread).trans hraw
        have hblanks : ∀ d ∈ cs, isBlank d = true := by
          rw [← (List.cons.inj hraw').2]
          exact forall_mem_takeWhile _
        have htoken : l.token? = none :=
          (congrArg Lexeme.token? hread).symm
        rw [facesOf_blank hblank, ← facesOf_dropWhile_isBlank,
          List.dropWhile_append_of_pos hblanks, facesOf_dropWhile_isBlank,
          hmore, List.filterMap_cons_none htoken]
      · have hread := readLexeme_seam (hs.append _)
          (.inl (Bool.eq_false_iff.mpr hblank)) hrest (hl ▸ hquote)
        rw [hl] at hread
        cases htoken : l.token? with
        | none =>
            rw [show l = ⟨l.raw, none⟩ by rw [← htoken]] at hread
            rw [facesOf_of_filler hread, hmore,
              List.filterMap_cons_none htoken]
        | some face =>
            rw [show l = ⟨l.raw, some face⟩ by rw [← htoken]] at hread
            rw [facesOf_of_token hread, hmore,
              List.filterMap_cons_some htoken, List.cons_append]

/-- A token does not begin with a blank. -/
lemma isBlank_eq_false_of_token {cs : List Char} {before after : List Lexeme}
    {l : Lexeme} {face : Face} (h : lexemes rules cs = before ++ l :: after)
    (htoken : l.token? = some face) :
    ∀ c ∈ l.raw.head?, isBlank c = false := by
  have hall := lexemes_eq_of_append h
  intro c hc
  obtain ⟨ds, hraw⟩ := List.head?_eq_some_iff.mp hc
  rw [List.flatMap_cons, hraw, List.cons_append, lexemes] at hall
  by_contra hblank
  rw [readLexeme_blank _ (by simpa using hblank)] at hall
  rw [← (List.cons.inj hall).1] at htoken
  cases htoken

/-- In front of a blank and of what a macro begins with, every lexeme ends
that ends where something else than a blank follows. -/
lemma VendorMacro.seam {name : String} (h : VendorMacro rules name)
    {old : List Char} (hne : old ≠ [])
    (hblank : ∀ c ∈ old.head?, isBlank c = false) (more : List Char) :
    Seam old (' ' :: (name.toList ++ more)) where
  ne_nil := hne
  head := .inr ⟨rfl, hblank⟩
  group := by
    obtain ⟨c, cs, hname, hstart, hc⟩ := h.exists_cons
    rw [hname, List.dropWhile_cons_of_pos (by decide), List.cons_append,
      List.dropWhile_cons_of_neg (by simp [hc])]
    intro hopen
    obtain rfl : c = '(' := Option.some.inj hopen
    exact absurd hstart (by decide)
  points := fun hp => absurd (List.cons_prefix_cons.mp hp).1 (by decide)

/-- Where a token begins, the tokens of both sides stay as they are when a
macro is written between them. -/
lemma TokenBegins.facesOf_insert {a b : String} (h : TokenBegins rules a b)
    (hquote : NoOpenQuote rules (a ++ b)) {name : String}
    (hname : VendorMacro rules name) {more : List Char}
    (hmore : facesOf rules (name.toList ++ more) = facesOf rules b.toList) :
    facesOf rules (a.toList ++ ' ' :: (name.toList ++ more))
      = facesOf rules (a ++ b).toList := by
  have hquotes := hquote.token?_ne
  have hblank : isBlank ' ' = true := by decide
  cases h with
  | token mem kind place =>
      obtain ⟨before, l, after, hlexemes, hface, hlen⟩ :=
        exists_lexemes_of_at mem kind place (by simp)
      have hall := lexemes_flatMap rules (a ++ b).toList
      rw [hlexemes, List.flatMap_append, String.toList_append] at hall
      obtain ⟨ha, hb⟩ := List.append_inj hall hlen
      have hold : ∀ c ∈ b.toList.head?, isBlank c = false := by
        rw [← hb, List.flatMap_cons,
          List.head?_append_of_ne_nil _ (right_of_lexemes_eq hlexemes).1]
        exact isBlank_eq_false_of_token hlexemes hface
      have hne : b.toList ≠ [] := by
        rw [← hb, List.flatMap_cons]
        exact List.append_ne_nil_of_left_ne_nil
          (right_of_lexemes_eq hlexemes).1 _
      have hbefore := hlexemes
      rw [String.toList_append] at hbefore
      rw [facesOf_seam (hname.seam hne hold more) hbefore ha
          fun l hl => hquotes l (hlexemes ▸ List.mem_append_left _ hl),
        facesOf_blank hblank, hmore, ← hb]
      rw [facesOf, lexemes_eq_of_append hlexemes, facesOf, hlexemes,
        List.filterMap_append]
  | last complete nil =>
      subst nil
      rw [String.append_empty] at hquotes ⊢
      have hseam := hname.seam (List.cons_ne_nil ')' [])
        (fun c hc => Option.some.inj hc ▸ by decide) more
      rw [facesOf_seam hseam complete (lexemes_flatMap rules a.toList)
          hquotes,
        facesOf_blank hblank, hmore]
      exact (congrArg _ facesOf_nil).trans (List.append_nil _)

/-- **Vendor macros leave no trace.**  In a text without a quote that stands
alone, a vendor macro may be called wherever a token begins, and behind a
complete text: the kinds and the values of the tokens stay the same.  The
arguments are complete tokens whose parentheses are properly nested, and
what is quoted or commented out among them, or stands in a directive, has
to close the parentheses that it opens. -/
theorem tokenize_insert_macro {a b name g : String}
    (hquote : NoOpenQuote rules (a ++ b)) (hplace : TokenBegins rules a b)
    (hname : VendorMacro rules name) (hargs : MacroArguments rules g)
    (hclosed : ∀ l ∈ lexemes rules g.toList, l.IsOpaque →
      closesParens 0 l.raw = true) :
    (tokenize rules (a ++ " " ++ name ++ "(" ++ g ++ ") " ++ b)).map Token.face
      = (tokenize rules (a ++ b)).map Token.face := by
  have hcall := hname.facesOf_call (hargs.closesParens hclosed)
    (' ' :: b.toList)
  rw [facesOf_blank (by decide)] at hcall
  have hfaces := hplace.facesOf_insert hquote hname hcall
  rw [map_face_tokenize, map_face_tokenize, ← hfaces]
  simp

/-- An attribute with a parenthesis in a string of its argument, which has
one that closes it. -/
theorem tokenize_insert_macro_sentinel :
    (tokenize {} ("- (void)stop" ++ " " ++ "API_DEPRECATED" ++ "("
        ++ "\"use (halt)\", ios(2, 3)" ++ ") " ++ ";")).map Token.face
      = (tokenize {} ("- (void)stop" ++ ";")).map Token.face :=
  tokenize_insert_macro (by decide +kernel)
    (.token (t := ⟨.semicolon, ";", 1, 13⟩) (by decide +kernel) (by decide)
      ⟨by decide +kernel, by decide +kernel⟩)
    ⟨⟨'A', rfl, by decide⟩, by decide +kernel, by decide +kernel,
      by decide +kernel⟩
    ⟨by decide +kernel, by decide +kernel⟩ (by decide +kernel)

/-- A string in the arguments that closes more than it opens ends them, and
the rest of the text is read as a string. -/
theorem not_tokenize_insert_macro_unbalanced :
    ∃ a b name g : String, NoOpenQuote {} (a ++ b) ∧ TokenBegins {} a b
      ∧ VendorMacro {} name ∧ MacroArguments {} g
      ∧ (tokenize {} (a ++ " " ++ name ++ "(" ++ g ++ ") " ++ b)).map
          Token.face ≠ (tokenize {} (a ++ b)).map Token.face :=
  ⟨"", "int x;", "FOO_BAR", "\")\"", by decide +kernel,
    .token (t := ⟨.identifier, "int", 1, 1⟩) (by decide +kernel) (by decide)
      ⟨by decide +kernel, by decide +kernel⟩,
    ⟨⟨'F', rfl, by decide⟩, by decide +kernel, by decide +kernel,
      by decide +kernel⟩,
    ⟨by decide +kernel, by decide +kernel⟩, by decide +kernel⟩

end HeaderBinding
