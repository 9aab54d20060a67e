/-
Tokens that are written out are read again.

* `Face`: the kind and the text of a token, without its place;
  `facesOf`: those of a text;
* `breaks`: marks and blanks before which every word and number ends, so
  does `EndsToken` say of a text; `marks`: marks that stand alone, whatever
  follows them;
* `Shape`: the texts that tokens of each kind have, quoted ones excepted;
  `readable_of_mem_facesOf` has it for the tokens of a text;
* `Shape.readLexeme_append`: such a text is read as the same token
  wherever it ends.
-/
import Mathlib.Data.List.Basic
import HeaderBinding.Proofs.Token.Account

namespace HeaderBinding

/-! ### Faces -/

/-- The kind and the text of a token. -/
abbrev Face := TokenKind × String

/-- A token without its place. -/
def Token.face (t : Token) : Face :=
  (t.kind, t.value)

/-- The tokens of a text without their places, the end excepted. -/
def facesOf (rules : MacroRules) (cs : List Char) : List Face :=
  (lexemes rules cs).filterMap Lexeme.token?

lemma map_face_placeTokens (p : Position) (ls : List Lexeme) :
    (placeTokens p ls).map Token.face
      = ls.filterMap Lexeme.token? ++ [(.endOfInput, "")] := by
  induction ls generalizing p with
  | nil => rfl
  | cons l ls ih =>
      rw [placeTokens, List.map_append, ih, Lexeme.placed]
      cases hl : l.token? with
      | none => rw [List.filterMap_cons_none hl]; rfl
      | some face => rw [List.filterMap_cons_some hl]; rfl

lemma map_face_tokenize (rules : MacroRules) (text : String) :
    (tokenize rules text).map Token.face
      = facesOf rules text.toList ++ [(.endOfInput, "")] :=
  map_face_placeTokens _ _

/-- The tokens up to one that is not the end. -/
lemma exists_facesOf_eq {rules : MacroRules} {text : String}
    {before after : List Token} {t : Token}
    (h : tokenize rules text = before ++ t :: after)
    (ht : t.kind ≠ .endOfInput) :
    ∃ fs, facesOf rules text.toList
      = before.map Token.face ++ t.face :: fs := by
  have hfaces := map_face_tokenize rules text
  rw [h, List.map_append, List.map_cons] at hfaces
  rcases List.eq_nil_or_concat after with rfl | ⟨front, last, rfl⟩
  · -- the token would be the end
    have hlast := (List.append_inj' hfaces rfl).2
    exact absurd (congrArg Prod.fst (List.cons.inj hlast).1) ht
  · rw [List.concat_eq_append, List.map_append, List.map_singleton,
      ← List.cons_append, ← List.append_assoc] at hfaces
    exact ⟨_, (List.append_inj' hfaces rfl).1.symm⟩

variable {rules : MacroRules}

@[simp] lemma facesOf_nil : facesOf rules [] = [] := by
  rw [facesOf, lexemes, List.filterMap_nil]

/-- The first lexeme is a token. -/
lemma facesOf_of_token {c : Char} {cs raw rest : List Char} {face : Face}
    (h : readLexeme rules c cs = (⟨raw, some face⟩, rest)) :
    facesOf rules (c :: cs) = face :: facesOf rules rest := by
  rw [facesOf, lexemes, h]
  rfl

/-- The first lexeme is no token. -/
lemma facesOf_of_filler {c : Char} {cs raw rest : List Char}
    (h : readLexeme rules c cs = (⟨raw, none⟩, rest)) :
    facesOf rules (c :: cs) = facesOf rules rest := by
  rw [facesOf, lexemes, h]
  rfl

/-- Blanks at the start do not count. -/
lemma facesOf_dropWhile_isBlank (rules : MacroRules) (cs : List Char) :
    facesOf rules (cs.dropWhile isBlank) = facesOf rules cs := by
  cases cs with
  | nil => rfl
  | cons c cs =>
      by_cases hc : isBlank c = true
      · rw [List.dropWhile_cons_of_pos hc]
        exact (facesOf_of_filler (readLexeme_blank rules hc cs)).symm
      · rw [List.dropWhile_cons_of_neg hc]

lemma facesOf_blank {c : Char} (hc : isBlank c = true) (cs : List Char) :
    facesOf rules (c :: cs) = facesOf rules cs := by
  rw [← facesOf_dropWhile_isBlank rules (c :: cs),
    List.dropWhile_cons_of_pos hc, facesOf_dropWhile_isBlank]

/-! ### Breaks and marks -/

/-- Blanks and marks before which a word or a number ends. -/
def breaks : List Char :=
  [' ', '\n', '>', ',', ')', ']', '[', '<', ':', ';', '=']

/-- Marks that stand alone, whatever follows them. -/
def marks : List Char :=
  ['(', ')', '[', ']', '<', '>', '*', '^', ',', ';', ':', '=', '-', '+']

/-- A word or a number ends in front of the text: it is empty or begins
with a break. -/
def EndsToken (after : List Char) : Prop :=
  ∀ d ∈ after.head?, d ∈ breaks

lemma endsToken_nil : EndsToken [] :=
  fun _ h => nomatch h

lemma endsToken_cons {d : Char} (h : d ∈ breaks) (ds : List Char) :
    EndsToken (d :: ds) :=
  fun _ he => Option.some.inj he ▸ h

/-- What all breaks have the first character of the text has. -/
lemma EndsToken.head {P : Char → Prop} {after : List Char}
    (h : EndsToken after) (hP : breaks.Forall P) :
    ∀ d ∈ after.head?, P d :=
  fun d hd => List.forall_iff_forall_mem.mp hP d (h d hd)

/-- The same with some text in front that has it too. -/
lemma EndsToken.head_append {P : Char → Prop} {as after : List Char}
    (h : EndsToken after) (hP : breaks.Forall P) (ha : ∀ c ∈ as, P c) :
    ∀ d ∈ (as ++ after).head?, P d := by
  cases as with
  | nil => exact h.head hP
  | cons a as => exact fun c hc => Option.some.inj hc ▸ ha a List.mem_cons_self

/-- What is neither a blank nor a comment nor quoted is a number, a word
or a mark. -/
lemma readLexeme_plain {c : Char} (hb : isBlank c = false)
    (hc : c ∉ ['#', '@', '"', '\'']) {cs : List Char}
    (hs : c = '/' → ∀ d ∈ cs.head?, d ≠ '/' ∧ d ≠ '*') :
    readLexeme rules c cs
      = if isDigit c ∨ (c = '.' ∧ cs.head?.any isDigit) then
          (⟨(readNumber (c :: cs)).1,
            some (.number, String.ofList (readNumber (c :: cs)).1)⟩,
            (readNumber (c :: cs)).2)
        else if isNameStart c then readWord rules (c :: cs)
        else readPunctuation c cs := by
  simp only [List.mem_cons, List.not_mem_nil, or_false, not_or] at hc
  obtain ⟨hdirective, hat, hstring, hchar⟩ := hc
  have hslash : ∀ d, (d = '/' ∨ d = '*') →
      ¬ (c = '/' ∧ cs.head? = some d) := by
    rintro d hd ⟨hc, hhead⟩
    have := hs hc d hhead
    rcases hd with rfl | rfl
    · exact this.1 rfl
    · exact this.2 rfl
  rw [readLexeme, if_neg (Bool.eq_false_iff.mp hb),
    if_neg (hslash _ (.inl rfl)), if_neg (hslash _ (.inr rfl)),
    if_neg hdirective, if_neg hat, if_neg hstring,
    if_neg (fun h => hchar h.1)]

lemma readLexeme_at (cs : List Char) :
    readLexeme rules '@' cs = readAt cs := by
  rw [readLexeme, if_neg (by decide), if_neg (by simp), if_neg (by simp),
    if_neg (by decide), if_pos rfl]

lemma readPunctuation_of_ne {c : Char} {cs : List Char}
    (h : c = '.' → ∀ d ∈ cs.head?, d ≠ '.') :
    readPunctuation c cs
      = (⟨[c], some (punctuationKind c, String.singleton c)⟩, cs) := by
  unfold readPunctuation
  split
  · exact absurd rfl (h rfl '.' rfl)
  · rfl

lemma marks_facts {c : Char} (h : c ∈ marks) :
    isBlank c = false ∧ c ∉ ['#', '@', '"', '\''] ∧ c ≠ '/' ∧ c ≠ '.'
      ∧ isDigit c = false ∧ isNameStart c = false := by
  revert c
  rw [← List.forall_iff_forall_mem]
  decide

/-- A mark is read alone. -/
lemma readLexeme_mark {c : Char} (h : c ∈ marks) (cs : List Char) :
    readLexeme rules c cs
      = (⟨[c], some (punctuationKind c, String.singleton c)⟩, cs) := by
  obtain ⟨hb, hq, hslash, hdot, hdigit, hname⟩ := marks_facts h
  rw [readLexeme_plain hb hq (fun hc => absurd hc hslash),
    if_neg (by simp [hdigit, hdot]), if_neg (by simp [hname]),
    readPunctuation_of_ne (fun hc => absurd hc hdot)]

lemma facesOf_mark {c : Char} (h : c ∈ marks) (cs : List Char) :
    facesOf rules (c :: cs)
      = (punctuationKind c, String.singleton c) :: facesOf rules cs :=
  facesOf_of_token (readLexeme_mark h cs)

/-! ### The texts of tokens -/

/-- A text that tokens of a kind have. -/
inductive Shape (rules : MacroRules) : TokenKind → List Char → Prop
  | hexadecimal {x : Char} {digits letters : List Char}
      (hx : x = 'x' ∨ x = 'X') (hd : ∀ c ∈ digits, isHexDigit c = true)
      (hl : ∀ c ∈ letters, isNumberSuffix c = true)
      (hh : ∀ c ∈ letters.head?, isHexDigit c = false) :
      Shape rules .number ('0' :: x :: (digits ++ letters))
  | number {c : Char} {parts letters : List Char} (hb : isBlank c = false)
      (hc : isDigit c = true
        ∨ (c = '.' ∧ ∃ d ∈ parts.head?, isDigit d = true))
      (hp : ∀ d ∈ parts, isNumberPart d = true)
      (hl : ∀ d ∈ letters, isNumberSuffix d = true) :
      Shape rules .number (c :: (parts ++ letters))
  | word {kind : TokenKind} {c : Char} {cs : List Char}
      (hb : isBlank c = false) (hd : isDigit c = false)
      (hc : isNameStart c = true) (hw : ∀ d ∈ cs, isWordChar d = true)
      (hr : wordRole rules (String.ofList (c :: cs)) = .keep kind) :
      Shape rules kind (c :: cs)
  | marked {c : Char} {cs : List Char} (hc : isNameStart c = true)
      (hw : ∀ d ∈ cs, isWordChar d = true) :
      Shape rules ((atKeyword? (String.ofList (c :: cs))).getD .identifier)
        ('@' :: c :: cs)
  | ellipsis : Shape rules .ellipsis ['.', '.', '.']
  | mark {c : Char} (hb : isBlank c = false) (hq : c ∉ ['#', '"', '\''])
      (hd : isDigit c = false) (hn : isNameStart c = false) :
      Shape rules (punctuationKind c) [c]

/-- The face can be read: its text has the shape of its kind. -/
def Readable (rules : MacroRules) (face : Face) : Prop :=
  Shape rules face.1 face.2.toList

/-- A token that is neither quoted nor a directive nor a quote alone. -/
def Face.Plain (face : Face) : Prop :=
  face.1 ∉ [TokenKind.string, .char, .directive]
    ∧ face ≠ (.unknown, "'")

instance (face : Face) : Decidable face.Plain :=
  inferInstanceAs (Decidable (_ ∧ _))

lemma takeWhile_append_of_stop {p : Char → Bool} {as bs : List Char}
    (ha : ∀ c ∈ as, p c = true) (hb : ∀ c ∈ bs.head?, p c = false) :
    (as ++ bs).takeWhile p = as := by
  rw [List.takeWhile_append_of_pos ha]
  cases bs with
  | nil => simp
  | cons b bs => simp [hb b rfl]

lemma dropWhile_append_of_stop {p : Char → Bool} {as bs : List Char}
    (ha : ∀ c ∈ as, p c = true) (hb : ∀ c ∈ bs.head?, p c = false) :
    (as ++ bs).dropWhile p = bs := by
  rw [List.dropWhile_append_of_pos ha]
  cases bs with
  | nil => simp
  | cons b bs => simp [hb b rfl]

/-- The first letter behind the digits of a number. -/
lemma head?_takeWhile {p q : Char → Bool} {cs : List Char}
    (h : ∀ c ∈ cs.head?, q c = false) :
    ∀ c ∈ (cs.takeWhile p).head?, q c = false := by
  intro c hc
  cases cs with
  | nil => exact nomatch hc
  | cons d ds =>
      by_cases hd : p d = true
      · rw [List.takeWhile_cons_of_pos hd] at hc
        rw [Option.mem_def, List.head?_cons, Option.some.injEq] at hc
        exact hc ▸ h d rfl
      · rw [List.takeWhile_cons_of_neg hd] at hc
        exact nomatch hc

lemma readDigits_of_not_hexadecimal {c : Char} {cs : List Char}
    (h : c = '0' → ∀ x ∈ cs.head?, ¬(x = 'x' ∨ x = 'X')) :
    readDigits (c :: cs)
      = ((c :: cs).takeWhile isNumberPart,
        (c :: cs).dropWhile isNumberPart) := by
  unfold readDigits
  split
  · rename_i x ds heq
    obtain ⟨rfl, rfl⟩ := List.cons.inj heq
    rw [if_neg (h rfl x rfl)]
  · rfl

lemma isNumberPart_of_isDigit {c : Char} (h : isDigit c = true) :
    isNumberPart c = true := by
  rw [isNumberPart, h]
  rfl

lemma shape_readNumber {c : Char} {cs : List Char}
    (hb : isBlank c = false)
    (h : isDigit c = true ∨ (c = '.' ∧ cs.head?.any isDigit = true)) :
    Shape rules .number (readNumber (c :: cs)).1 := by
  by_cases hx : ∃ x ds, c = '0' ∧ cs = x :: ds ∧ (x = 'x' ∨ x = 'X')
  · obtain ⟨x, ds, rfl, rfl, hx⟩ := hx
    have hdigits : readDigits ('0' :: x :: ds)
        = ('0' :: x :: ds.takeWhile isHexDigit,
          ds.dropWhile isHexDigit) := by
      simp only [readDigits, if_pos hx]
    rw [readNumber, hdigits]
    exact .hexadecimal hx (forall_mem_takeWhile ds)
      (forall_mem_takeWhile _) (head?_takeWhile (head?_dropWhile ds))
  · have hpart : isNumberPart c = true := by
      rcases h with h | ⟨rfl, -⟩
      · exact isNumberPart_of_isDigit h
      · decide
    rw [readNumber, readDigits_of_not_hexadecimal,
      List.takeWhile_cons_of_pos hpart, List.dropWhile_cons_of_pos hpart]
    · refine .number hb (h.imp_right fun hdot => ⟨hdot.1, ?_⟩)
        (forall_mem_takeWhile cs) (forall_mem_takeWhile _)
      -- the digit behind the point is a part of the number
      cases cs with
      | nil => exact absurd hdot.2 (by decide)
      | cons d ds =>
          have hd : isDigit d = true := by simpa using hdot.2
          refine ⟨d, ?_, hd⟩
          rw [List.takeWhile_cons_of_pos (isNumberPart_of_isDigit hd)]
          rfl
    · intro hc x hhead hx'
      obtain ⟨ds, rfl⟩ := List.head?_eq_some_iff.mp hhead
      exact hx ⟨x, ds, hc, rfl, hx'⟩

lemma shape_readAt {cs : List Char} {face : Face} (hp : face.Plain)
    (h : (readAt cs).1.token? = some face) : Readable rules face := by
  have halone : Readable rules (.unknown, "@") := by
    show Shape rules (punctuationKind '@') ['@']
    exact .mark (by decide) (by decide) (by decide) (by decide)
  unfold readAt at h
  split at h
  · exact Option.some.inj h ▸ halone
  rename_i d ds
  split at h
  · exact absurd (by rw [← Option.some.inj h]; simp) hp.1
  split at h
  · rename_i hname
    rw [← Option.some.inj h]
    show Shape rules _ _
    rw [String.toList_ofList,
      List.takeWhile_cons_of_pos (isWordChar_of_isNameStart hname)]
    exact .marked hname (forall_mem_takeWhile ds)
  · exact Option.some.inj h ▸ halone

lemma shape_readWord {c : Char} {cs : List Char} {face : Face}
    (hb : isBlank c = false) (hd : isDigit c = false)
    (hc : isNameStart c = true)
    (h : (readWord rules (c :: cs)).1.token? = some face) :
    Readable rules face := by
  rw [readWord, List.takeWhile_cons_of_pos (isWordChar_of_isNameStart hc)]
    at h
  dsimp only at h
  split at h
  · rename_i kind hrole
    rw [← Option.some.inj h]
    show Shape rules kind _
    rw [String.toList_ofList]
    exact .word hb hd hc (forall_mem_takeWhile cs) hrole
  · cases h
  · cases h

/-- A plain token of a text has the shape of its kind. -/
lemma readable_of_readLexeme {c : Char} {cs : List Char} {face : Face}
    (hp : face.Plain) (h : (readLexeme rules c cs).1.token? = some face) :
    Readable rules face := by
  unfold readLexeme at h
  split at h
  · cases h
  rename_i hb
  split at h
  · cases h
  split at h
  · cases h
  split at h
  · exact absurd (by rw [← Option.some.inj h]; simp) hp.1
  rename_i hdirective
  split at h
  · exact shape_readAt hp h
  split at h
  · exact absurd (by rw [← Option.some.inj h]; simp) hp.1
  rename_i hstring
  split at h
  · exact absurd (by rw [← Option.some.inj h]; simp) hp.1
  split at h
  · rename_i hnumber
    rw [← Option.some.inj h]
    show Shape rules .number _
    rw [String.toList_ofList]
    exact shape_readNumber (Bool.eq_false_iff.mpr hb) hnumber
  rename_i hnumber
  rw [not_or] at hnumber
  split at h
  · rename_i hname
    exact shape_readWord (Bool.eq_false_iff.mpr hb)
      (Bool.eq_false_iff.mpr hnumber.1) hname h
  rename_i hname
  unfold readPunctuation at h
  split at h
  · exact Option.some.inj h ▸ .ellipsis
  · -- a quote that stands alone is not plain
    have hquote : c ≠ '\'' := by
      rintro rfl
      exact hp.2 (Option.some.inj h).symm
    rw [← Option.some.inj h]
    show Shape rules (punctuationKind c) (String.singleton c).toList
    rw [String.toList_singleton]
    refine .mark (Bool.eq_false_iff.mpr hb) ?_
      (Bool.eq_false_iff.mpr hnumber.1) (Bool.eq_false_iff.mpr hname)
    simp [hdirective, hstring, hquote]

/-- Every plain token of a text but the end can be read. -/
lemma readable_of_mem_facesOf {cs : List Char} {face : Face}
    (hp : face.Plain) (h : face ∈ facesOf rules cs) :
    Readable rules face := by
  unfold facesOf at h
  fun_induction lexemes rules cs with
  | case1 => exact absurd h List.not_mem_nil
  | case2 c cs ih =>
      obtain ⟨l, hl, hface⟩ := List.mem_filterMap.mp h
      rcases List.mem_cons.mp hl with rfl | hl
      · exact readable_of_readLexeme hp hface
      · exact ih (List.mem_filterMap.mpr ⟨l, hl, hface⟩)

/-! ### Reading a text again -/

lemma isNameStart_facts {c : Char} (h : isNameStart c = true) :
    c ∉ ['#', '@', '"', '\''] ∧ c ≠ '/' ∧ c ≠ '.' := by
  refine ⟨fun hc => ?_, ?_, ?_⟩
  · simp only [List.mem_cons, List.not_mem_nil, or_false] at hc
    rcases hc with rfl | rfl | rfl | rfl <;> exact absurd h (by decide)
  · rintro rfl
    exact absurd h (by decide)
  · rintro rfl
    exact absurd h (by decide)

lemma isNumberPart_facts {c : Char} (h : isNumberPart c = true) :
    c ∉ ['#', '@', '"', '\''] ∧ c ≠ '/' ∧ ¬(c = 'x' ∨ c = 'X') := by
  refine ⟨fun hc => ?_, ?_, ?_⟩
  · simp only [List.mem_cons, List.not_mem_nil, or_false] at hc
    rcases hc with rfl | rfl | rfl | rfl <;> exact absurd h (by decide)
  · rintro rfl
    exact absurd h (by decide)
  · rintro (rfl | rfl) <;> exact absurd h (by decide)

lemma isNumberSuffix_facts {c : Char} (h : isNumberSuffix c = true) :
    isNumberPart c = false ∧ ¬(c = 'x' ∨ c = 'X') := by
  simp only [isNumberSuffix, List.contains_cons, List.contains_nil,
    Bool.or_false, Bool.or_eq_true, beq_iff_eq] at h
  rcases h with rfl | rfl | rfl | rfl | rfl | rfl <;> decide

/-- A number is read as far as its digits and its suffix go. -/
lemma readNumber_append_of_stop {digits cs letters after : List Char}
    (h : readDigits cs = (digits, letters ++ after))
    (hl : ∀ c ∈ letters, isNumberSuffix c = true) (ha : EndsToken after) :
    readNumber cs = (digits ++ letters, after) := by
  have hstop := ha.head (P := (isNumberSuffix · = false)) (by decide)
  rw [readNumber, h, takeWhile_append_of_stop hl hstop,
    dropWhile_append_of_stop hl hstop]

lemma readLexeme_hexadecimal {x : Char} {digits letters after : List Char}
    (hx : x = 'x' ∨ x = 'X') (hd : ∀ c ∈ digits, isHexDigit c = true)
    (hl : ∀ c ∈ letters, isNumberSuffix c = true)
    (hh : ∀ c ∈ letters.head?, isHexDigit c = false)
    (ha : EndsToken after) :
    readLexeme rules '0' (x :: (digits ++ letters) ++ after)
      = (⟨'0' :: x :: (digits ++ letters),
        some (.number, String.ofList ('0' :: x :: (digits ++ letters)))⟩,
        after) := by
  have hstop : ∀ c ∈ (letters ++ after).head?, isHexDigit c = false := by
    cases letters with
    | nil => exact ha.head (by decide)
    | cons l ls => exact hh
  have hdigits : readDigits ('0' :: (x :: (digits ++ letters) ++ after))
      = ('0' :: x :: digits, letters ++ after) := by
    simp only [List.cons_append, List.append_assoc, readDigits, if_pos hx,
      takeWhile_append_of_stop hd hstop, dropWhile_append_of_stop hd hstop]
  rw [readLexeme_plain (by decide) (by decide)
      (fun h => absurd h (by decide)), if_pos (.inl (by decide)),
    readNumber_append_of_stop hdigits hl ha]
  rfl

lemma readLexeme_number {c : Char} {parts letters after : List Char}
    (hb : isBlank c = false)
    (hc : isDigit c = true ∨ (c = '.' ∧ ∃ d ∈ parts.head?, isDigit d = true))
    (hp : ∀ d ∈ parts, isNumberPart d = true)
    (hl : ∀ d ∈ letters, isNumberSuffix d = true) (ha : EndsToken after) :
    readLexeme rules c (parts ++ letters ++ after)
      = (⟨c :: (parts ++ letters),
        some (.number, String.ofList (c :: (parts ++ letters)))⟩,
        after) := by
  have hpart : isNumberPart c = true := by
    rcases hc with hc | ⟨rfl, -⟩
    · exact isNumberPart_of_isDigit hc
    · decide
  obtain ⟨hq, hs, -⟩ := isNumberPart_facts hpart
  have hparts : ∀ d ∈ c :: parts, isNumberPart d = true :=
    List.forall_mem_cons.mpr ⟨hpart, hp⟩
  have hstop : ∀ d ∈ (letters ++ after).head?, isNumberPart d = false :=
    ha.head_append (by decide) fun d hd => (isNumberSuffix_facts (hl d hd)).1
  have hnohex : ∀ d ∈ (parts ++ letters ++ after).head?,
      ¬(d = 'x' ∨ d = 'X') := by
    refine ha.head_append (by decide) fun d hd => ?_
    rcases List.mem_append.mp hd with hd | hd
    · exact (isNumberPart_facts (hp d hd)).2.2
    · exact (isNumberSuffix_facts (hl d hd)).2
  have hdigits : readDigits (c :: (parts ++ letters ++ after))
      = (c :: parts, letters ++ after) := by
    rw [readDigits_of_not_hexadecimal fun _ => hnohex, List.append_assoc,
      ← List.cons_append, takeWhile_append_of_stop hparts hstop,
      dropWhile_append_of_stop hparts hstop]
  have hcond : isDigit c = true
      ∨ (c = '.' ∧ (parts ++ letters ++ after).head?.any isDigit = true) := by
    refine hc.imp_right fun hdot => ⟨hdot.1, ?_⟩
    obtain ⟨d, hd, hdigit⟩ := hdot.2
    cases parts with
    | nil => exact nomatch hd
    | cons p ps => exact Option.some.inj hd ▸ hdigit
  rw [readLexeme_plain hb hq (fun h => absurd h hs), if_pos hcond,
    readNumber_append_of_stop hdigits hl ha]
  rfl

/-- A word ends where no word character follows. -/
lemma takeWhile_word {c : Char} {cs after : List Char}
    (hc : isNameStart c = true) (hw : ∀ d ∈ cs, isWordChar d = true)
    (ha : EndsToken after) :
    (c :: (cs ++ after)).takeWhile isWordChar = c :: cs
      ∧ (c :: (cs ++ after)).dropWhile isWordChar = after := by
  have hall : ∀ d ∈ c :: cs, isWordChar d = true :=
    List.forall_mem_cons.mpr ⟨isWordChar_of_isNameStart hc, hw⟩
  have hstop := ha.head (P := (isWordChar · = false)) (by decide)
  exact ⟨takeWhile_append_of_stop hall hstop,
    dropWhile_append_of_stop hall hstop⟩

lemma readLexeme_word {kind : TokenKind} {c : Char} {cs after : List Char}
    (hb : isBlank c = false) (hd : isDigit c = false)
    (hc : isNameStart c = true) (hw : ∀ d ∈ cs, isWordChar d = true)
    (hr : wordRole rules (String.ofList (c :: cs)) = .keep kind)
    (ha : EndsToken after) :
    readLexeme rules c (cs ++ after)
      = (⟨c :: cs, some (kind, String.ofList (c :: cs))⟩, after) := by
  obtain ⟨hq, hs, hdot⟩ := isNameStart_facts hc
  obtain ⟨htake, hdrop⟩ := takeWhile_word hc hw ha
  rw [readLexeme_plain hb hq (fun h => absurd h hs),
    if_neg (by simp [hd, hdot]), if_pos hc, readWord, htake, hdrop]
  simp only [hr]

lemma readLexeme_marked {c : Char} {cs after : List Char}
    (hc : isNameStart c = true) (hw : ∀ d ∈ cs, isWordChar d = true)
    (ha : EndsToken after) :
    readLexeme rules '@' (c :: cs ++ after)
      = (⟨'@' :: c :: cs,
        some ((atKeyword? (String.ofList (c :: cs))).getD .identifier,
          String.ofList ('@' :: c :: cs))⟩, after) := by
  obtain ⟨htake, hdrop⟩ := takeWhile_word hc hw ha
  have hquote : c ≠ '"' := by
    rintro rfl
    exact absurd hc (by decide)
  rw [readLexeme_at, List.cons_append, readAt, if_neg hquote, if_pos hc,
    htake, hdrop]

lemma readLexeme_alone {c : Char} {after : List Char}
    (hb : isBlank c = false) (hq : c ∉ ['#', '"', '\''])
    (hd : isDigit c = false) (hn : isNameStart c = false)
    (ha : EndsToken after) :
    readLexeme rules c after
      = (⟨[c], some (punctuationKind c, String.singleton c)⟩, after) := by
  by_cases hat : c = '@'
  · subst hat
    rw [readLexeme_at]
    cases after with
    | nil => rfl
    | cons d ds =>
        have hbreak : d ≠ '"' ∧ ¬isNameStart d = true :=
          ha.head (P := fun d => d ≠ '"' ∧ ¬isNameStart d = true) (by decide)
            d rfl
        rw [readAt, if_neg hbreak.1, if_neg hbreak.2]
        rfl
  · have hq' : c ∉ ['#', '@', '"', '\''] := by
      simp only [List.mem_cons, List.not_mem_nil, or_false, not_or]
        at hq ⊢
      exact ⟨hq.1, hat, hq.2⟩
    have hdigit : after.head?.any isDigit = false := by
      cases after with
      | nil => rfl
      | cons d ds => exact ha.head (P := (isDigit · = false)) (by decide) d rfl
    rw [readLexeme_plain hb hq' (fun _ => ha.head (by decide)),
      if_neg (by simp [hd, hdigit]), if_neg (by simp [hn]),
      readPunctuation_of_ne (fun _ => ha.head (by decide))]

/-- A text of some shape is read as one token wherever it ends. -/
lemma Shape.readLexeme_append {kind : TokenKind} {c : Char}
    {cs : List Char} (h : Shape rules kind (c :: cs)) {after : List Char}
    (ha : EndsToken after) :
    readLexeme rules c (cs ++ after)
      = (⟨c :: cs, some (kind, String.ofList (c :: cs))⟩, after) := by
  cases h with
  | hexadecimal hx hd hl hh => exact readLexeme_hexadecimal hx hd hl hh ha
  | number hb hc hp hl => exact readLexeme_number hb hc hp hl ha
  | word hb hd hc hw hr => exact readLexeme_word hb hd hc hw hr ha
  | marked hc hw => exact readLexeme_marked hc hw ha
  | ellipsis =>
      rw [readLexeme_plain (by decide) (by decide)
          (fun h => absurd h (by decide)),
        if_neg (by simp [isDigit]), if_neg (by decide)]
      rfl
  | mark hb hq hd hn => exact readLexeme_alone hb hq hd hn ha

end HeaderBinding
