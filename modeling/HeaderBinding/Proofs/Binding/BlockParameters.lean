/-
The parameters of blocks, which are read of a text, and those of functions,
which are read of its tokens.

* `Token.Solid`: what tokens have in common that are not quoted;
* `staysWhole_joinedTokens`: nested tokens are joined to a text that stays
  whole among the parameters of a block;
* `splitBlockParameter?_joinedTokens`: when such a text names a parameter,
  by `lastNamesInBlock`;
* `blockParameters_alike_iff`: type and name are those that the tokens give
  exactly if both ways take the last token for a name.
-/
import HeaderBinding.Proofs.Binding.BlockTexts
import HeaderBinding.Proofs.Cursor.Brackets
import HeaderBinding.Proofs.Token.Expressions
import HeaderBinding.Proofs.Text.Ascii

namespace HeaderBinding

variable {rules : MacroRules}

/-! ### Texts of tokens -/

/-- What tokens have in common that are not quoted.  A mark in the text is
all of it, and a text that begins like a name of C is a word. -/
structure Token.Solid (t : Token) : Prop where
  ne_nil : t.value.toList ≠ []
  not_blank : ∀ c ∈ t.value.toList, isBlank c = false
  eq_mark : ∀ c ∈ marks, c ∈ t.value.toList →
    t.value.toList = [c] ∧ t.kind = punctuationKind c
  eq_label : t.kind ∈ markKinds → t.value.toList = t.kind.label.toList
  isWord : t.value.toList.head?.any startsPlainName = true →
    ∀ c ∈ t.value.toList, isWordChar c = true

lemma Token.Solid.exists_getLast? {t : Token} (h : t.Solid) :
    ∃ c, t.value.toList.getLast? = some c :=
  Option.ne_none_iff_exists'.mp
    fun hn => h.ne_nil (List.getLast?_eq_none_iff.mp hn)

lemma standsAlone_of_isBlank {c : Char} (h : isBlank c = true) :
    StandsAlone c := by
  have hall : ∀ n ∈ blankCodes, isNumberPart (Char.ofNat n) = false
      ∧ isNumberSuffix (Char.ofNat n) = false
      ∧ isHexDigit (Char.ofNat n) = false
      ∧ Char.ofNat n ∉ ['0', 'x', 'X', '@', '.'] := by
    decide +kernel
  have hfacts := hall c.toNat (mem_blankCodes h)
  rw [Char.ofNat_toNat] at hfacts
  obtain ⟨hpart, hsuffix, hhex, hmem⟩ := hfacts
  exact ⟨isWordChar_of_isBlank h, hpart, hsuffix, hhex, hmem⟩

/-- A token that is not quoted has no blank in it. -/
lemma Shape.not_blank {kind : TokenKind} {cs : List Char}
    (h : Shape rules kind cs) : ∀ c ∈ cs, isBlank c = false := by
  intro c hmem
  by_contra hblank
  have hc := standsAlone_of_isBlank ((Bool.not_eq_false _).mp hblank)
  exact hblank (h.eq_singleton hc hmem).2.2

lemma startsPlainName_facts {c : Char} (h : startsPlainName c = true) :
    isNameStart c = true ∧ isDigit c = false ∧ c ∉ ['.', '@'] := by
  have hplain : isPlainChar c = true := by
    rcases (Bool.or_eq_true _ _).mp h with hunderscore | halpha
    · rw [isPlainChar, hunderscore, Bool.or_true]
    · rw [isPlainChar, Char.isAlphanum, halpha, Bool.true_or, Bool.true_or]
  exact forall_ascii (P := fun c => startsPlainName c = true →
      isNameStart c = true ∧ isDigit c = false ∧ c ∉ ['.', '@'])
    (by decide +kernel) (toNat_lt_of_isPlainChar hplain) h

/-- A token that begins like a name of C is a word. -/
lemma Shape.isWord {kind : TokenKind} {cs : List Char}
    (h : Shape rules kind cs)
    (hhead : cs.head?.any startsPlainName = true) :
    ∀ c ∈ cs, isWordChar c = true := by
  obtain ⟨c, hc, hstart⟩ := (Option.any_eq_true _ _).mp hhead
  obtain ⟨hname, hdigit, hother⟩ := startsPlainName_facts hstart
  cases h with
  | hexadecimal =>
      obtain rfl := Option.some.inj hc
      exact absurd hdigit (by decide)
  | number _ hfirst =>
      obtain rfl := Option.some.inj hc
      rcases hfirst with hd | hd
      · exact absurd hd (by simp [hdigit])
      · exact absurd hd.1 (by rintro rfl; simp at hother)
  | word _ _ hfirst hw =>
      exact List.forall_mem_cons.mpr ⟨isWordChar_of_isNameStart hfirst, hw⟩
  | marked =>
      obtain rfl := Option.some.inj hc
      simp at hother
  | ellipsis =>
      obtain rfl := Option.some.inj hc
      simp at hother
  | mark _ _ _ hn =>
      obtain rfl := Option.some.inj hc
      exact absurd hname (by simp [hn])

/-- It holds of the tokens of a text that are neither quoted nor
directives. -/
lemma solid_of_mem_facesOf {t : Token} {cs : List Char}
    (hk : t.kind ∉ [TokenKind.string, .char, .directive])
    (h : t.face ∈ facesOf rules cs) : t.Solid := by
  by_cases hquote : t.face = loneQuote
  · obtain ⟨hkind, hvalue⟩ := Prod.mk.inj hquote
    have htext : t.value.toList = ['\''] := by rw [hvalue]; rfl
    constructor <;> rw [htext]
    · decide
    · exact List.forall_mem_singleton.mpr (by decide)
    · intro c hc hmem
      obtain rfl := List.mem_singleton.mp hmem
      exact absurd hc (by decide)
    · exact fun hmark => absurd (hkind ▸ hmark) (by decide)
    · exact fun hstart => absurd hstart (by decide)
  · have hread : Readable rules t.face :=
      readable_of_mem_facesOf ⟨hk, hquote⟩ h
    exact ⟨hread.toList_ne_nil, Shape.not_blank hread,
      fun c hc hmem => Shape.eq_mark hread hc hmem, Shape.eq_label hread,
      Shape.isWord hread⟩

/-! ### Joined texts -/

/-- The text that tokens are joined to. -/
def joinedTokens (ts : List Token) : List Char :=
  joinPiecesAfter none (ts.map (·.value.toList))

lemma toList_joinTypeText (ts : List Token) :
    (joinTypeText (tokenValues ts)).toList = joinedTokens ts := by
  rw [joinTypeText, String.toList_ofList, tokenValues, List.map_map]
  rfl

lemma ofList_joinedTokens (ts : List Token) :
    String.ofList (joinedTokens ts) = joinTypeText (tokenValues ts) := by
  rw [← toList_joinTypeText, String.ofList_toList]

/-- No token of the row is quoted. -/
def SolidRow (ts : List Token) : Prop :=
  ∀ t ∈ ts, t.Solid

namespace SolidRow

variable {us ts : List Token} {t : Token}

lemma of_append_left (h : SolidRow (us ++ ts)) : SolidRow us :=
  fun u hu => h u (List.mem_append_left _ hu)

lemma last (h : SolidRow (us ++ [t])) : t.Solid :=
  h t (by simp)

lemma not_blank_of_mem_flatten (h : SolidRow ts) {c : Char}
    (hc : c ∈ (ts.map (·.value.toList)).flatten) : isBlank c = false := by
  obtain ⟨cs, hcs, hmem⟩ := List.mem_flatten.mp hc
  obtain ⟨t, ht, rfl⟩ := List.mem_map.mp hcs
  exact (h t ht).not_blank c hmem

/-- The only blanks in a joined text are the spaces between its pieces. -/
lemma eq_space_of_mem (h : SolidRow ts) {c : Char}
    (hc : c ∈ joinedTokens ts) (hb : isBlank c = true) : c = ' ' := by
  by_contra hne
  rw [joinedTokens, ← List.count_pos_iff, count_joinPiecesAfter hne,
    List.count_pos_iff] at hc
  exact absurd hb (by simp [h.not_blank_of_mem_flatten hc])

lemma joined_cons (h : SolidRow (t :: ts)) :
    ∃ rest, joinedTokens (t :: ts) = t.value.toList ++ rest := by
  obtain ⟨c, hc⟩ := (h t List.mem_cons_self).exists_getLast?
  refine ⟨joinPiecesAfter (some c) (ts.map (·.value.toList)), ?_⟩
  rw [joinedTokens, List.map_cons, joinPiecesAfter_cons hc]
  rfl

lemma joined_ne_nil (h : SolidRow ts) (hne : ts ≠ []) :
    joinedTokens ts ≠ [] := by
  obtain ⟨t, ts, rfl⟩ := List.exists_cons_of_ne_nil hne
  obtain ⟨rest, heq⟩ := h.joined_cons
  rw [heq]
  exact List.append_ne_nil_of_left_ne_nil
    (h t List.mem_cons_self).ne_nil _

/-- A joined text has no blanks around it. -/
lemma trim_joined (h : SolidRow ts) :
    trim (joinedTokens ts) = joinedTokens ts := by
  refine trim_eq ?_ ?_
  · cases ts with
    | nil => exact fun c hc => nomatch hc
    | cons t ts =>
        obtain ⟨rest, heq⟩ := h.joined_cons
        obtain ⟨hne, hblank, -⟩ := h t List.mem_cons_self
        rw [heq, List.head?_append_of_ne_nil _ hne]
        exact fun c hc => hblank c (List.mem_of_mem_head? hc)
  · intro c hc
    rw [List.head?_reverse, joinedTokens, getLast?_joinPiecesAfter] at hc
    exact h.not_blank_of_mem_flatten (List.mem_of_getLast? hc)

end SolidRow

/-! ### Parts of a signature -/

/-- The brackets and the comma of a signature. -/
def signatureMarks : List Char :=
  ['(', ')', '<', '>', ',']

lemma signatureMarks_subset : signatureMarks ⊆ marks := by
  decide

/-- Nothing else counts. -/
lemma staysWhole_append {as : List Char} (h : ∀ c ∈ as, c ∉ signatureMarks)
    {depth : Int} {bs : List Char} :
    StaysWhole ['(', '<'] [')', '>'] depth (as ++ bs)
      ↔ StaysWhole ['(', '<'] [')', '>'] depth bs := by
  induction as with
  | nil => rfl
  | cons a as ih =>
      obtain ⟨ha, has⟩ := List.forall_mem_cons.mp h
      simp only [signatureMarks, List.mem_cons, List.not_mem_nil, or_false,
        not_or] at ha
      obtain ⟨hopen, hclose, hless, hmore, hcomma⟩ := ha
      have hdepth : depthAfter ['(', '<'] [')', '>'] depth a = depth := by
        simp [depthAfter, hopen, hclose, hless, hmore]
      rw [List.cons_append, StaysWhole, hdepth, ih has]
      exact and_iff_right fun h => hcomma h.1

/-- A token in front of a text that stays whole behind the brackets that
are due there. -/
lemma staysWhole_token {t : Token} (ht : t.Solid)
    (hparen : t.kind ∉ [TokenKind.openParen, .closeParen])
    {due : List TokenKind} (hfits : fits angleBrackets due t = true)
    (hcomma : t.kind = .comma → due ≠ []) {bs : List Char}
    (h : StaysWhole ['(', '<'] [')', '>']
      (dueBehind angleBrackets due t).length bs) :
    StaysWhole ['(', '<'] [')', '>'] due.length (t.value.toList ++ bs) := by
  by_cases hplain : ∀ c ∈ t.value.toList, c ∉ signatureMarks
  · have hangle : ∀ k ∈ [TokenKind.openAngle, .closeAngle], t.kind ≠ k := by
      intro k hk heq
      have hmark : ∀ k ∈ [TokenKind.openAngle, .closeAngle],
          k ∈ markKinds ∧ k.label.toList.any signatureMarks.contains := by
        decide
      obtain ⟨hkind, hany⟩ := hmark k hk
      have htext := ht.eq_label (heq ▸ hkind)
      obtain ⟨c, hc, hmem⟩ := List.any_eq_true.mp hany
      exact hplain c (by rwa [htext, heq]) (List.contains_iff_mem.mp hmem)
    have hdue : dueBehind angleBrackets due t = due := by
      have hopen := hangle .openAngle (by simp)
      have hclose := hangle .closeAngle (by simp)
      simp [dueBehind, angleBrackets, Brackets.closers, hopen, hclose]
    rw [staysWhole_append hplain]
    rwa [hdue] at h
  · simp only [not_forall, not_not] at hplain
    obtain ⟨c, hc, hmark⟩ := hplain
    obtain ⟨htext, hkind⟩ := ht.eq_mark c (signatureMarks_subset hmark) hc
    rw [htext]
    simp only [signatureMarks, List.mem_cons, List.not_mem_nil, or_false]
      at hmark
    rcases hmark with rfl | rfl | rfl | rfl | rfl
    · exact absurd hkind fun hk => hparen (hk ▸ by decide)
    · exact absurd hkind fun hk => hparen (hk ▸ by decide)
    · have hdue : dueBehind angleBrackets due t = .closeAngle :: due := by
        rw [dueBehind, hkind]
        rfl
      rw [hdue, List.length_cons] at h
      exact ⟨by simp, by simpa [depthAfter] using h⟩
    · obtain ⟨rest, rfl⟩ := exists_due_of_fits hfits (hkind ▸ by decide)
      have hdue : dueBehind angleBrackets (t.kind :: rest) t = rest := by
        rw [dueBehind, hkind]
        rfl
      rw [hdue] at h
      exact ⟨by simp, by simpa [depthAfter] using h⟩
    · have hdue : dueBehind angleBrackets due t = due := by
        rw [dueBehind, hkind]
        rfl
      rw [hdue] at h
      have hopen := hcomma hkind
      exact ⟨by simpa [depthAfter] using hopen, by simpa [depthAfter] using h⟩

/-- Nested tokens without a comma outside their angle brackets are joined to
a text that stays whole. -/
lemma staysWhole_joinedTokens {ts : List Token} (h : SolidRow ts)
    (hparens : ∀ t ∈ ts, t.kind ∉ [TokenKind.openParen, .closeParen])
    {due : List TokenKind} (hnested : isNested angleBrackets due ts = true)
    (hcommas : commasInside angleBrackets [.closeAngle] due ts = true)
    (prev : Option Char) :
    StaysWhole ['(', '<'] [')', '>'] due.length
      (joinPiecesAfter prev (ts.map (·.value.toList))) := by
  induction ts generalizing due prev with
  | nil =>
      obtain rfl : due = [] := List.isEmpty_iff.mp hnested
      rfl
  | cons t ts ih =>
      obtain ⟨ht, hts⟩ := List.forall_mem_cons.mp h
      obtain ⟨hparen, hparens⟩ := List.forall_mem_cons.mp hparens
      rw [isNested, Bool.and_eq_true] at hnested
      rw [commasInside, Bool.and_eq_true] at hcommas
      obtain ⟨c, hc⟩ := ht.exists_getLast?
      have hrest := ih hts hparens hnested.2 hcommas.2 (some c)
      rw [List.map_cons, joinPiecesAfter_cons hc]
      -- a space in front does not count
      suffices hwhole : StaysWhole ['(', '<'] [')', '>'] due.length
          (t.value.toList
            ++ joinPiecesAfter (some c) (ts.map (·.value.toList))) by
        have hspace : ∀ d ∈ [' '], d ∉ signatureMarks := by
          simp [signatureMarks]
        split
        · exact (staysWhole_append hspace).mpr hwhole
        · exact hwhole
      refine staysWhole_token ht hparen hnested.1 ?_ hrest
      rintro hk rfl
      simp [hk] at hcommas

/-! ### Names of parameters -/

/-- The kinds of opening brackets, behind which no space stands. -/
def openerKinds : List TokenKind :=
  [.openParen, .openBracket, .openAngle]

/-- The last token names the parameter of a block: its text begins like a
name of C and is no word of a type, and a token stands before it that opens
no bracket. -/
def lastNamesInBlock (ts : List Token) : Bool :=
  ts.dropLast.getLast?.any (!openerKinds.contains ·.kind)
    && ts.getLast?.any fun t =>
      t.value.toList.head?.any startsPlainName
        && !typeWordsOfC.contains t.value

/-- Only opening brackets end in the characters of such. -/
lemma Token.Solid.opens_iff {t : Token} (h : t.Solid) {c : Char}
    (hc : t.value.toList.getLast? = some c) :
    c ∈ ['<', '(', '['] ↔ t.kind ∈ openerKinds := by
  constructor
  · intro hmem
    have hmarks : ['<', '(', '['] ⊆ marks := by decide
    obtain ⟨-, hkind⟩ := h.eq_mark c (hmarks hmem) (List.mem_of_getLast? hc)
    simp only [List.mem_cons, List.not_mem_nil, or_false] at hmem
    rcases hmem with rfl | rfl | rfl <;> exact hkind ▸ by decide
  · intro hk
    have hlabel : ∀ k ∈ openerKinds, k ∈ markKinds
        ∧ k.label.toList.getLast?.all ['<', '(', '['].contains = true := by
      decide
    obtain ⟨hkind, hlast⟩ := hlabel _ hk
    rw [h.eq_label hkind] at hc
    rw [hc] at hlast
    exact List.contains_iff_mem.mp hlast

lemma spacedAfter_of_word {cs : List Char} (hne : cs ≠ [])
    (h : ∀ c ∈ cs, isWordChar c = true) (prev : Char) :
    spacedAfter prev cs = decide (prev ∉ ['<', '(', '[']) := by
  have hno : ∀ {c}, isWordChar c = false → c ∉ cs := by
    intro c hc hmem
    rw [h c hmem] at hc
    cases hc
  have hone : ∀ {c}, isWordChar c = false → cs ≠ [c] := by
    rintro c hc rfl
    exact hno hc (List.mem_singleton_self c)
  have hhead : cs.head? ≠ some '<' := fun hc =>
    hno (c := '<') (by decide) (List.mem_of_mem_head? hc)
  rw [spacedAfter, if_neg (hone (by decide))]
  simp [hhead, hone (c := '>') (by decide), hone (c := ',') (by decide),
    hone (c := ')') (by decide), hone (c := ']') (by decide),
    hone (c := '[') (by decide), hone (c := '(') (by decide)]

lemma lastNamesInBlock_concat (us : List Token) (t : Token) :
    lastNamesInBlock (us ++ [t])
      = (us.getLast?.any (!openerKinds.contains ·.kind)
        && (t.value.toList.head?.any startsPlainName
          && !typeWordsOfC.contains t.value)) := by
  simp [lastNamesInBlock]

/-- A text that ends in a token that is no word names nothing. -/
lemma splitBlockParameter?_of_not_word {t : Token} (ht : t.Solid)
    (hword : ¬ ∀ c ∈ t.value.toList, isWordChar c = true)
    (front : List Char) :
    splitBlockParameter? (front ++ t.value.toList) = none := by
  obtain ⟨word, hsplit, hw⟩ :=
    exists_dropEnd_append isWordChar t.value.toList
  have hstop := List.head?_dropWhile_not isWordChar t.value.toList.reverse
  cases hdrop : t.value.toList.reverse.dropWhile isWordChar with
  | nil =>
      rw [hdrop, List.reverse_nil, List.nil_append] at hsplit
      exact absurd (hsplit ▸ hw) hword
  | cons mark before =>
      rw [hdrop] at hstop hsplit
      have htext : t.value.toList = before.reverse ++ mark :: word := by
        simpa using hsplit
      have hmem : mark ∈ t.value.toList := by simp [htext]
      rw [htext, ← List.append_assoc,
        splitBlockParameter?_append (by simpa using hstop) hw, if_neg]
      intro hcond
      simp only [Bool.and_eq_true] at hcond
      obtain ⟨⟨⟨⟨hstart, hmark⟩, -⟩, -⟩, -⟩ := hcond
      -- a star would be all of the token
      rw [isPointerMark, ht.not_blank mark hmem, Bool.or_false, beq_iff_eq]
        at hmark
      subst hmark
      have hstar := (ht.eq_mark '*' (by decide) hmem).1
      obtain rfl : word = [] := by
        have hlen := congrArg List.length (htext.symm.trans hstar)
        simp only [List.length_append, List.length_cons, List.length_nil]
          at hlen
        exact List.eq_nil_of_length_eq_zero (by omega)
      cases hstart

/-- A word directly behind an opening bracket names nothing. -/
lemma splitBlockParameter?_bracket_word {front name : List Char} {c : Char}
    (hc : c ∈ ['<', '(', '[']) (hname : ∀ d ∈ name, isWordChar d = true) :
    splitBlockParameter? (front ++ c :: name) = none := by
  have hmark : isWordChar c = false ∧ isPointerMark c = false := by
    simp only [List.mem_cons, List.not_mem_nil, or_false] at hc
    rcases hc with rfl | rfl | rfl <;> decide
  rw [splitBlockParameter?_append hmark.1 hname]
  simp [hmark.2]

/-- A word with a space between it and some tokens may be the name behind
the type that they make up. -/
lemma splitBlockParameter?_space_word {us : List Token} (h : SolidRow us)
    (hne : us ≠ []) {name : List Char}
    (hname : ∀ d ∈ name, isWordChar d = true) :
    splitBlockParameter? (joinedTokens us ++ ' ' :: name)
      = if name.head?.any startsPlainName
            && !typeWordsOfC.contains (String.ofList name) then
          some (joinedTokens us, name)
        else none := by
  have hline : '\n' ∉ joinedTokens us := fun hmem =>
    absurd (h.eq_space_of_mem hmem (by decide)) (by decide)
  have hspace : isPointerMark ' ' = true := by decide
  rw [splitBlockParameter?_append (by decide) hname, trim_append_space,
    h.trim_joined]
  simp [hspace, hline, h.joined_ne_nil hne]

lemma joinedTokens_concat {us : List Token} {t : Token} (ht : t.Solid) :
    joinedTokens (us ++ [t]) = joinedTokens us
      ++ (if (lastAfter none (us.map (·.value.toList))).any
            (spacedAfter · t.value.toList) then ' ' :: t.value.toList
          else t.value.toList) := by
  obtain ⟨c, hc⟩ := ht.exists_getLast?
  rw [joinedTokens, List.map_append, joinPiecesAfter_append,
    List.map_singleton, joinPiecesAfter_cons hc, joinPiecesAfter,
    List.append_nil]
  rfl

lemma lastAfter_concat {u : Token} {c : Char}
    (hc : u.value.toList.getLast? = some c) (us : List Token) :
    lastAfter none ((us ++ [u]).map (·.value.toList)) = some c := by
  simp [lastAfter, hc]

lemma getLast?_joinedTokens_concat {u : Token} {c : Char}
    (hc : u.value.toList.getLast? = some c) (us : List Token) :
    (joinedTokens (us ++ [u])).getLast? = some c := by
  rw [joinedTokens, getLast?_joinPiecesAfter]
  simp [hc]

/-- **When a joined text names a parameter.**  Its last token does so by
`lastNamesInBlock`, and the others are the type. -/
theorem splitBlockParameter?_joinedTokens {us : List Token} {t : Token}
    (h : SolidRow (us ++ [t])) :
    splitBlockParameter? (joinedTokens (us ++ [t]))
      = if lastNamesInBlock (us ++ [t]) then
          some (joinedTokens us, t.value.toList)
        else none := by
  have ht : t.Solid := h.last
  rw [joinedTokens_concat ht, lastNamesInBlock_concat]
  by_cases hword : ∀ c ∈ t.value.toList, isWordChar c = true
  · rcases List.eq_nil_or_concat us with rfl | ⟨vs, u, rfl⟩
    · exact splitBlockParameter?_of_word hword
    · rw [List.concat_eq_append] at h ⊢
      have hu : u.Solid := h u (by simp)
      obtain ⟨c, hc⟩ := hu.exists_getLast?
      have hopens := hu.opens_iff hc
      rw [lastAfter_concat hc, Option.any_some,
        spacedAfter_of_word ht.ne_nil hword]
      by_cases hopen : c ∈ ['<', '(', '[']
      · obtain ⟨front, hfront⟩ := List.getLast?_eq_some_iff.mp
          (getLast?_joinedTokens_concat hc vs)
        simp only [hopen, not_true_eq_false, decide_false,
          Bool.false_eq_true, if_false]
        rw [hfront, List.append_assoc, List.singleton_append,
          splitBlockParameter?_bracket_word hopen hword]
        simp [hopens.mp hopen]
      · simp only [hopen, not_false_eq_true, decide_true, if_true]
        rw [splitBlockParameter?_space_word h.of_append_left (by simp) hword]
        simp [mt hopens.mpr hopen]
  · -- what is no word does not begin like a name of C
    have hstart : t.value.toList.head?.any startsPlainName = false :=
      Bool.eq_false_iff.mpr (mt ht.isWord hword)
    simp only [hstart, Bool.false_and, Bool.and_false, Bool.false_eq_true,
      if_false]
    split
    · rw [List.append_cons]
      exact splitBlockParameter?_of_not_word ht hword _
    · exact splitBlockParameter?_of_not_word ht hword _

/-! ### Blocks and functions -/

/-- The type and the name that a text gives the parameter of a block; where
nothing is named, the text is the type. -/
def blockParameter (cs : List Char) : List Char × List Char :=
  (splitBlockParameter? cs).getD (cs, [])

/-- The text that the tokens are joined to gives the parameter of a block
the type and the name that the tokens give that of a function. -/
def ParameterAlike (p : List Token) : Prop :=
  let split := blockParameter (joinTypeText (tokenValues p)).toList
  String.ofList split.1 = (splitParameter p).type
    ∧ String.ofList split.2 = (splitParameter p).name

instance (p : List Token) : Decidable (ParameterAlike p) :=
  inferInstanceAs (Decidable (_ ∧ _))

lemma blockParameter_joinedTokens {us : List Token} {t : Token}
    (h : SolidRow (us ++ [t])) :
    blockParameter (joinedTokens (us ++ [t]))
      = if lastNamesInBlock (us ++ [t]) then
          (joinedTokens us, t.value.toList)
        else (joinedTokens (us ++ [t]), []) := by
  rw [blockParameter, splitBlockParameter?_joinedTokens h]
  split <;> rfl

lemma cutCallable_eq_none {ts : List Token}
    (h : ∀ t ∈ ts, t.kind ≠ .openParen) : cutCallable ts = none := by
  fun_induction cutCallable ts with
  | case1 o m n ts hcut => exact absurd hcut.1 (h o List.mem_cons_self)
  | case2 o m n ts hcut ih =>
      rw [ih fun t ht => h t (List.mem_cons_of_mem _ ht)]
      rfl
  | case3 => rfl

/-- Without parentheses the last token may name a parameter of a function,
and the others are the type. -/
lemma splitParameter_concat {us : List Token} {t : Token}
    (h : ∀ u ∈ us ++ [t], u.kind ≠ .openParen) :
    splitParameter (us ++ [t])
      = if lastNamesParameter (us ++ [t]) then
          parameterOf t.value (tokenValues us)
        else parameterOf "" (tokenValues (us ++ [t])) := by
  rw [splitParameter, cutCallable_eq_none h]
  simp

/-- A parameter is read alike exactly if both ways take its last token for
its name. -/
theorem parameterAlike_iff {p : List Token} (h : SolidRow p)
    (hparen : ∀ t ∈ p, t.kind ≠ .openParen) :
    ParameterAlike p ↔ lastNamesInBlock p = lastNamesParameter p := by
  rcases List.eq_nil_or_concat p with rfl | ⟨us, t, rfl⟩
  · exact iff_of_true (by decide) rfl
  · rw [List.concat_eq_append] at h hparen ⊢
    have hname : t.value ≠ "" := by
      intro hempty
      exact h.last.ne_nil (by rw [hempty]; rfl)
    rw [ParameterAlike, toList_joinTypeText, blockParameter_joinedTokens h,
      splitParameter_concat hparen]
    cases lastNamesInBlock (us ++ [t]) with
    | false =>
        cases lastNamesParameter (us ++ [t]) with
        | false => exact iff_of_true ⟨ofList_joinedTokens _, rfl⟩ rfl
        | true => exact iff_of_false (fun h => hname h.2.symm) (by decide)
    | true =>
        cases lastNamesParameter (us ++ [t]) with
        | false =>
            refine iff_of_false (fun h => hname ?_) (by decide)
            exact String.ofList_toList.symm.trans h.2
        | true =>
            exact iff_of_true
              ⟨ofList_joinedTokens us, String.ofList_toList⟩ rfl

/-- Tokens of a text that may be the parameter of a function: none of them
is quoted or a parenthesis, angle brackets are nested, and every comma
stands inside of some. -/
structure ParameterRun (rules : MacroRules) (p : List Token) : Prop where
  run : ∃ text, p <:+: (tokenize rules text).dropLast
  kinds : ∀ t ∈ p, t.kind ∉
    [TokenKind.openParen, .closeParen, .string, .char, .directive]
  nested : isNested angleBrackets [] p = true
  commas : commasInside angleBrackets [.closeAngle] [] p = true

namespace ParameterRun

variable {p : List Token}

lemma solidRow (h : ParameterRun rules p) : SolidRow p := by
  obtain ⟨text, hrun⟩ := h.run
  intro t ht
  have hface : t.face ∈ facesOf rules text.toList := by
    rw [← map_face_dropLast_tokenize]
    exact List.mem_map_of_mem (hrun.subset ht)
  refine solid_of_mem_facesOf (fun hk => h.kinds t ht ?_) hface
  exact List.mem_cons_of_mem _ (List.mem_cons_of_mem _ hk)

lemma kind_ne (h : ParameterRun rules p) :
    ∀ t ∈ p, t.kind ∉ [TokenKind.openParen, .closeParen] := by
  intro t ht hk
  refine h.kinds t ht ?_
  exact List.mem_append_left [TokenKind.string, .char, .directive] hk

lemma staysWhole (h : ParameterRun rules p) :
    StaysWhole ['(', '<'] [')', '>'] 0 (joinedTokens p) :=
  staysWhole_joinedTokens h.solidRow h.kind_ne h.nested h.commas none

end ParameterRun

/-- The signature that the texts of parameters are joined to has these
parameters. -/
lemma splitBlockSignature_joinedTokens {returned : String}
    (hreturned : ¬ blockMark <:+: returned.toList) {ps : List (List Token)}
    (hps : ∀ p ∈ ps, ParameterRun rules p) (hne : ∀ p ∈ ps, p ≠ [])
    (hvoid : ps.map (fun p => joinTypeText (tokenValues p)) ≠ ["void"]) :
    splitBlockSignature (returned ++ " (^)(" ++ ", ".intercalate
        (ps.map fun p => joinTypeText (tokenValues p)) ++ ")").toList
      = (trim returned.toList, ps.map joinedTokens) := by
  have htexts : (ps.map fun p => joinTypeText (tokenValues p)).map
      String.toList = ps.map joinedTokens := by
    rw [List.map_map]
    exact List.map_congr_left fun p _ => toList_joinTypeText p
  have hparts : ∀ cs ∈ ps.map joinedTokens,
      StaysWhole ['(', '<'] [')', '>'] 0 cs ∧ trim cs = cs ∧ cs ≠ [] := by
    intro cs hcs
    obtain ⟨p, hp, rfl⟩ := List.mem_map.mp hcs
    have hsolid := (hps p hp).solidRow
    exact ⟨(hps p hp).staysWhole, hsolid.trim_joined,
      hsolid.joined_ne_nil (hne p hp)⟩
  have htrim : (ps.map joinedTokens).map trim = ps.map joinedTokens := by
    rw [List.map_congr_left fun cs hcs => (hparts cs hcs).2.1, List.map_id']
  have hnot : (ps.map joinedTokens).map trim ≠ ["void".toList] := by
    rw [htrim, ← htexts]
    exact fun h => hvoid
      (List.map_injective_iff.mpr (fun _ _ => String.toList_injective) h)
  have htarget : (returned ++ " (^)(" ++ ", ".intercalate
      (ps.map fun p => joinTypeText (tokenValues p)) ++ ")").toList
      = returned.toList ++ " (^)(".toList
        ++ [',', ' '].intercalate (ps.map joinedTokens) ++ [')'] := by
    rw [← htexts]
    simp [String.toList_intercalate]
  rw [htarget, splitBlockSignature_join hreturned
    (fun cs hcs => ⟨(hparts cs hcs).1, ?_⟩) hnot, htrim]
  rw [(hparts cs hcs).2.1]
  exact (hparts cs hcs).2.2

/-- **Parameters of blocks and of functions.**  The parameters of a block
type are those whose texts were joined in it.  Each has the type and the
name that its tokens have as the parameter of a function exactly if both
ways take the last token for the name. -/
theorem blockParameters_alike_iff (ctx : TypeContext) (name : String)
    {returned : String} (hreturned : ¬ blockMark <:+: returned.toList)
    {ps : List (List Token)} (hps : ∀ p ∈ ps, ParameterRun rules p) :
    let texts := ps.map fun p => joinTypeText (tokenValues p)
    let target := returned ++ " (^)(" ++ ", ".intercalate texts ++ ")"
    (∀ p ∈ ps, ParameterAlike p
        ↔ lastNamesInBlock p = lastNamesParameter p)
      ∧ ((∀ p ∈ ps, p ≠ []) → texts ≠ ["void"] →
        (bindDelegate ctx ⟨name, target⟩).parameters
          = texts.mapIdx fun index text =>
            let split := blockParameter text.toList
            ⟨parameterName (String.ofList split.2) index,
              (bindType ctx none (String.ofList split.1)).1, []⟩) := by
  intro texts target
  constructor
  · intro p hp
    have hrun := hps p hp
    exact parameterAlike_iff hrun.solidRow fun t ht hk =>
      hrun.kind_ne t ht (by simp [hk])
  · intro hne hvoid
    rw [bindDelegate, splitBlockSignature_joinedTokens hreturned hps hne hvoid]
    refine List.ext_getElem? fun index => ?_
    rw [List.getElem?_mapIdx, List.getElem?_mapIdx, List.getElem?_map,
      List.getElem?_map]
    cases ps[index]? with
    | none => rfl
    | some p => simp [bindBlockParameter, blockParameter, toList_joinTypeText]

/-- A dictionary with a name, and a flag without one. -/
theorem blockParameters_alike_found :
    let ps := [(tokenize {} "NSDictionary<NSString *, id> *found").dropLast,
      (tokenize {} "BOOL *").dropLast]
    let texts := ["NSDictionary<NSString *, id> * found", "BOOL *"]
    (∀ p ∈ ps, ParameterRun {} p)
      ∧ (∀ p ∈ ps, p ≠ [] ∧ ParameterAlike p)
      ∧ (bindDelegate {} ⟨"Find", "void" ++ " (^)("
          ++ ", ".intercalate texts ++ ")"⟩).parameters
        = texts.mapIdx fun index text =>
          let split := blockParameter text.toList
          ⟨parameterName (String.ofList split.2) index,
            (bindType {} none (String.ofList split.1)).1, []⟩ := by
  intro ps texts
  have htexts : ps.map (fun p => joinTypeText (tokenValues p)) = texts := by
    decide +kernel
  have hruns : ∀ p ∈ ps, ParameterRun {} p := by
    refine List.forall_mem_cons.mpr ⟨?_, List.forall_mem_singleton.mpr ?_⟩ <;>
      exact ⟨⟨_, List.infix_rfl⟩, by decide +kernel, by decide +kernel,
        by decide +kernel⟩
  have hboth : ∀ p ∈ ps, p ≠ []
      ∧ lastNamesInBlock p = lastNamesParameter p := by
    decide +kernel
  have hnone : ¬ blockMark <:+: "void".toList := by decide
  obtain ⟨halike, hparams⟩ := blockParameters_alike_iff {} "Find" hnone hruns
  rw [htexts] at hparams
  exact ⟨hruns, fun p hp => ⟨(hboth p hp).1, (halike p hp).mpr (hboth p hp).2⟩,
    hparams (fun p hp => (hboth p hp).1) (by decide)⟩

/-- An annotation behind a type is taken for the name of the parameter of a
block, but not of a function. -/
theorem not_parameterAlike_nullable :
    let p := (tokenize {} "NSString * _Nullable").dropLast
    ParameterRun {} p ∧ ¬ ParameterAlike p
      ∧ blockParameter "NSString * _Nullable".toList
        = ("NSString *".toList, "_Nullable".toList)
      ∧ splitParameter p = ⟨"", "NSString * _Nullable", true⟩ := by
  refine ⟨⟨⟨_, List.infix_rfl⟩, ?_, ?_, ?_⟩, ?_, ?_, ?_⟩ <;> decide +kernel

end HeaderBinding
