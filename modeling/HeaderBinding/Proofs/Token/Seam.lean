/-
Where a lexeme ends, other text may follow.

* `Seam`: a text gives way to another one, and no reader that stops in
  front of the first can tell the second from it;
* `readGroup_seam`, `readWord_seam`, ...: one lemma for each reader;
* `lexemeStart`, `lexemeStart_seam`: the start of a lexeme, which decides
  its reader, and that it is the same in front of both;
* `readLexeme_seam`: a lexeme in front of a seam stays as it is, a quote
  that stands alone excepted.
-/
import HeaderBinding.Proofs.Token.Reread

namespace HeaderBinding

/-- The text `old` behind a lexeme gives way to `new`: it begins with the
same character, or with a blank where there was none; and where it opens a
group or goes on with points, so did the old one. -/
structure Seam (old new : List Char) : Prop where
  ne_nil : old ≠ []
  head : new.head? = old.head?
    ∨ (new.head? = some ' ' ∧ ∀ c ∈ old.head?, isBlank c = false)
  group : (new.dropWhile isBlank).head? = some '('
    → (old.dropWhile isBlank).head? = some '('
  points : ['.', '.'] <+: new → ['.', '.'] <+: old

lemma head?_of_singleton_prefix {c : Char} {cs : List Char}
    (h : [c] <+: cs) : c ∈ cs.head? := by
  obtain ⟨ds, rfl⟩ := h
  rfl

namespace Seam

variable {old new : List Char}

/-- Both texts in terms of their first characters. -/
lemma exists_cons (h : Seam old new) : ∃ o os n ns, old = o :: os
    ∧ new = n :: ns ∧ (n = o ∨ (n = ' ' ∧ isBlank o = false)) := by
  obtain ⟨o, os, rfl⟩ := List.exists_cons_of_ne_nil h.ne_nil
  rcases h.head with hhead | ⟨hhead, hblank⟩
  · obtain ⟨ns, rfl⟩ := List.head?_eq_some_iff.mp hhead
    exact ⟨o, os, o, ns, rfl, rfl, .inl rfl⟩
  · obtain ⟨ns, rfl⟩ := List.head?_eq_some_iff.mp hhead
    exact ⟨o, os, ' ', ns, rfl, rfl, .inr ⟨rfl, hblank o rfl⟩⟩

/-- What a blank has not, the new text begins with only if the old one
does. -/
lemma head_of_new (h : Seam old new) {q : Char → Prop} (hq : ¬ q ' ')
    (hnew : ∃ c ∈ new.head?, q c) : ∃ c ∈ old.head?, q c := by
  obtain ⟨o, os, n, ns, rfl, rfl, rfl | ⟨rfl, -⟩⟩ := h.exists_cons
  · exact hnew
  · obtain ⟨c, hc, hqc⟩ := hnew
    exact absurd (Option.some.inj hc ▸ hqc) hq

/-- A run that ends in front of the old text ends in front of the new. -/
lemma stops (h : Seam old new) {p : Char → Bool} (hp : p ' ' = false)
    (hold : ∀ c ∈ old.head?, p c = false) :
    ∀ c ∈ new.head?, p c = false := by
  intro c hc
  by_contra hpc
  obtain ⟨d, hd, hpd⟩ := h.head_of_new (q := fun c => p c = true)
    (by simp [hp]) ⟨c, hc, by simpa using hpc⟩
  exact absurd hpd (by simp [hold d hd])

/-- The same text may stand in front of both. -/
lemma append (h : Seam old new) (cs : List Char) :
    Seam (cs ++ old) (cs ++ new) where
  ne_nil := List.append_ne_nil_of_right_ne_nil cs h.ne_nil
  head := by
    cases cs with
    | nil => exact h.head
    | cons c cs => exact .inl rfl
  group := by
    rw [List.dropWhile_append, List.dropWhile_append]
    split
    · exact h.group
    · rename_i hne
      cases hcs : cs.dropWhile isBlank with
      | nil => simp [hcs] at hne
      | cons c cs => exact id
  points := by
    rcases cs with - | ⟨c, - | ⟨d, cs⟩⟩
    · exact h.points
    · intro hnew
      obtain ⟨hc, hhead⟩ := List.cons_prefix_cons.mp hnew
      obtain ⟨e, he, rfl⟩ := h.head_of_new (q := (· = '.')) (by decide)
        ⟨'.', head?_of_singleton_prefix hhead, rfl⟩
      obtain ⟨es, rfl⟩ := List.head?_eq_some_iff.mp he
      exact List.cons_prefix_cons.mpr ⟨hc, ⟨es, rfl⟩⟩
    · intro hnew
      simpa using hnew

end Seam

/-! ### Readers -/

section Readers

variable {raw old new : List Char}

/-- A run that ends in front of one text ends in front of another. -/
lemma span_seam {p : Char → Bool} (h : (raw ++ old).dropWhile p = old)
    (hnew : (∀ c ∈ old.head?, p c = false) → ∀ c ∈ new.head?, p c = false) :
    (raw ++ old).takeWhile p = raw ∧ (raw ++ new).takeWhile p = raw
      ∧ (raw ++ new).dropWhile p = new := by
  have htake : (raw ++ old).takeWhile p = raw := by
    have := List.takeWhile_append_dropWhile (p := p) (l := raw ++ old)
    rw [h] at this
    exact List.append_cancel_right this
  have hraw : ∀ c ∈ raw, p c = true := by
    intro c hc
    exact forall_mem_takeWhile (raw ++ old) c (htake.symm ▸ hc)
  have hstop := hnew (h ▸ head?_dropWhile (raw ++ old))
  exact ⟨htake, takeWhile_append_of_stop hraw hstop,
    dropWhile_append_of_stop hraw hstop⟩

/-- A block comment is read up to its first end mark. -/
lemma readBlockComment_closed {body : List Char}
    (h : ¬ ['*', '/'] <:+: body ++ ['*']) (rest : List Char) :
    readBlockComment (body ++ '*' :: '/' :: rest)
      = (body ++ ['*', '/'], rest) := by
  induction body with
  | nil => rfl
  | cons c body ih =>
      rw [List.cons_append, List.infix_cons_iff, not_or] at h
      rw [List.cons_append, readBlockComment, ih h.2]
      · rfl
      · rintro ds rfl hds
        cases body with
        | nil => exact absurd (List.cons.inj hds).1 (by decide)
        | cons d body =>
            obtain ⟨rfl, -⟩ := List.cons.inj hds
            exact h.1 ⟨_, rfl⟩

lemma readBlockComment_seam (hold : old ≠ [])
    (h : (readBlockComment (raw ++ old)).2 = old) :
    readBlockComment (raw ++ new) = (raw, new) := by
  have happ := readBlockComment_append (raw ++ old)
  rw [h] at happ
  have hraw := List.append_cancel_right happ
  rcases readBlockComment_cases (raw ++ old)
    with ⟨body, hbody, hno⟩ | ⟨hrest, -⟩
  · rw [← hraw, hbody, List.append_assoc]
    exact readBlockComment_closed hno new
  · exact absurd (h.symm.trans hrest) hold

/-- Quoted text is read up to its closing quote. -/
lemma Escaped.readQuoted_append {quote : Char} {body : List Char}
    (hq : quote ≠ '\\') (h : Escaped quote body) (rest : List Char) :
    readQuoted quote (body ++ quote :: rest) = ⟨body, [quote], rest⟩ := by
  have hmore : ∀ cs : List Char, ∃ d ds, cs ++ quote :: rest = d :: ds := by
    intro cs
    cases cs with
    | nil => exact ⟨_, _, rfl⟩
    | cons d cs => exact ⟨_, _, rfl⟩
  induction h with
  | nil => cases rest <;> simp [readQuoted]
  | @plain c cs hc hb _ ih =>
      obtain ⟨d, ds, hds⟩ := hmore cs
      rw [hds] at ih
      rw [List.cons_append, hds, readQuoted, if_neg hc, if_neg hb, ih]
  | @pair d cs _ ih =>
      rw [List.cons_append, List.cons_append, readQuoted,
        if_neg (Ne.symm hq), if_pos rfl, ih]

/-- With text behind it, quoted text has its closing quote. -/
lemma quotedLexeme_ne {kind : TokenKind} {before : List Char}
    {quote : Char} (hold : old ≠ []) :
    (quotedLexeme kind before quote old).2 ≠ old := by
  intro h
  have hrest : (readQuoted quote old).rest = old := h
  have happ := congrArg List.length (readQuoted_append quote old)
  rcases quotes_readQuoted quote old with ⟨hclose, -⟩ | hopen
  · rw [hclose, hrest, List.length_append, List.length_append,
      List.length_singleton] at happ
    omega
  · exact hold (hrest.symm.trans hopen.2.1)

lemma quotedLexeme_seam {kind : TokenKind} {before : List Char}
    {quote : Char} (hq : quote ≠ '\\') (hold : old ≠ [])
    (h : (quotedLexeme kind before quote (raw ++ old)).2 = old) :
    quotedLexeme kind before quote (raw ++ new)
      = ((quotedLexeme kind before quote (raw ++ old)).1, new) := by
  have happ := readQuoted_append quote (raw ++ old)
  have hrest : (readQuoted quote (raw ++ old)).rest = old := h
  rw [hrest] at happ
  have hraw := List.append_cancel_right happ
  rcases quotes_readQuoted quote (raw ++ old) with ⟨hclose, hbody⟩ | hopen
  · have hnew := hbody.readQuoted_append hq new
    rw [hclose] at hraw
    rw [List.append_cons, hraw] at hnew
    rw [quotedLexeme, quotedLexeme, hnew, hclose]
  · exact absurd (hrest.symm.trans hopen.2.1) hold

/-- The line break that a directive stops at is not continued. -/
lemma rest_readDirective_ne (cs os : List Char) :
    (readDirective os).rest ≠ cs ++ '\n' :: os := by
  intro h
  have := congrArg List.length (readDirective_append os)
  rw [h] at this
  simp only [List.length_append, List.length_cons] at this
  omega

/-- A directive is read up to the end of its line. -/
lemma readDirective_seam (hold : old.head? = some '\n')
    (hnew : new.head? = some '\n')
    (h : (readDirective (raw ++ old)).rest = old) :
    readDirective (raw ++ new)
      = { readDirective (raw ++ old) with rest := new } := by
  obtain ⟨os, rfl⟩ := List.head?_eq_some_iff.mp hold
  obtain ⟨ns, rfl⟩ := List.head?_eq_some_iff.mp hnew
  fun_induction readDirective raw with
  | case1 => simp [readDirective]
  | case2 cs =>
      rw [List.cons_append, readDirective] at h
      have := congrArg List.length h
      simp only [List.length_append, List.length_cons] at this
      omega
  | case3 cs r ih => simp_all [readDirective]
  | case4 cs r ih => simp_all [readDirective]
  | case5 c cs hn hb hr r ih =>
      by_cases hcut : c = '\\' ∧ (cs = [] ∨ cs = ['\r'])
      · obtain ⟨rfl, rfl | rfl⟩ := hcut
        · exact absurd h (rest_readDirective_ne [] os)
        · exact absurd h (rest_readDirective_ne [] os)
      have hline : ∀ ls ds, c = '\\' → cs ++ '\n' :: ls ≠ '\n' :: ds
          ∧ cs ++ '\n' :: ls ≠ '\r' :: '\n' :: ds := by
        rintro ls ds rfl
        rcases cs with - | ⟨d, - | ⟨e, cs⟩⟩
        · exact absurd ⟨rfl, .inl rfl⟩ hcut
        · refine ⟨fun hds => ?_, fun hds => ?_⟩
          · exact hb [] rfl (by rw [(List.cons.inj hds).1])
          · exact hcut ⟨rfl, .inr (by rw [(List.cons.inj hds).1])⟩
        · refine ⟨fun hds => ?_, fun hds => ?_⟩
          · exact hb (e :: cs) rfl (by rw [(List.cons.inj hds).1])
          · obtain ⟨rfl, htail⟩ := List.cons.inj hds
            exact hr cs rfl (by rw [(List.cons.inj htail).1])
      have hstep : ∀ ls, readDirective (c :: cs ++ '\n' :: ls)
          = { readDirective (cs ++ '\n' :: ls) with
            raw := c :: (readDirective (cs ++ '\n' :: ls)).raw
            body := c :: (readDirective (cs ++ '\n' :: ls)).body } := by
        intro ls
        rw [List.cons_append, readDirective]
        · exact hn
        · exact fun ds hc => (hline ls ds hc).1
        · exact fun ds hc => (hline ls ds hc).2
      rw [hstep] at h
      rw [hstep, hstep, ih h]

lemma readGroup_ne {depth : Nat} (hold : old ≠ []) :
    (readGroup (depth + 1) old).2 ≠ old := by
  obtain ⟨o, os, rfl⟩ := List.exists_cons_of_ne_nil hold
  intro h
  have := congrArg List.length (readGroup_append (depth + 1) (o :: os))
  rw [h, readGroup, List.length_append, List.length_cons] at this
  omega

/-- A group is read up to the parenthesis that closes it. -/
lemma readGroup_seam {depth : Nat} (hold : old ≠ [])
    (h : (readGroup depth (raw ++ old)).2 = old) :
    readGroup depth (raw ++ new) = (raw, new) := by
  fun_induction readGroup depth raw with
  | case1 cs =>
      have hnil : cs = [] := by simpa [readGroup] using h
      simp [readGroup, hnil]
  | case2 depth => exact absurd h (readGroup_ne hold)
  | case3 depth c cs r ih =>
      rw [List.cons_append, readGroup] at h ⊢
      simp [ih h]

lemma readDigits_seam (hs : Seam old new) {c : Char} {cs : List Char}
    (h : (readDigits (c :: (cs ++ old))).2 = old) :
    readDigits (c :: (cs ++ new)) = (c :: cs, new) := by
  by_cases hx : ∃ x ds, c = '0' ∧ cs = x :: ds ∧ (x = 'x' ∨ x = 'X')
  · obtain ⟨x, ds, rfl, rfl, hx⟩ := hx
    simp only [List.cons_append, readDigits, if_pos hx] at h ⊢
    obtain ⟨-, htake, hdrop⟩ := span_seam h (hs.stops (by decide))
    rw [htake, hdrop]
  have hdecimal : ∀ bs, (∃ x ∈ bs.head?, x = 'x' ∨ x = 'X') →
      c = '0' → ¬ (readDigits (c :: bs)).2 = bs := by
    rintro bs ⟨x, hhead, hx'⟩ rfl hbs
    obtain ⟨ds, rfl⟩ := List.head?_eq_some_iff.mp hhead
    rw [readDigits, if_pos hx'] at hbs
    have hlen := congrArg List.length hbs
    have := (List.dropWhile_sublist (p := isHexDigit) (l := ds)).length_le
    simp only [List.length_cons] at hlen
    omega
  have hno : ∀ x ∈ (cs ++ old).head?, c = '0' → ¬(x = 'x' ∨ x = 'X') := by
    intro x hhead hc hx'
    cases cs with
    | nil => exact hdecimal old ⟨x, hhead, hx'⟩ hc h
    | cons d ds =>
        exact hx ⟨x, ds, hc, by rw [Option.some.inj hhead], hx'⟩
  have hno' : ∀ x ∈ (cs ++ new).head?, c = '0' → ¬(x = 'x' ∨ x = 'X') := by
    intro x hhead hc hx'
    obtain ⟨y, hy, hyx⟩ := (hs.append cs).head_of_new
      (q := fun x => x = 'x' ∨ x = 'X') (by decide) ⟨x, hhead, hx'⟩
    exact hno y hy hc hyx
  rw [readDigits_of_not_hexadecimal fun hc x hx => hno x hx hc,
    ← List.cons_append] at h
  obtain ⟨-, htake, hdrop⟩ := span_seam h (hs.stops (by decide))
  rw [readDigits_of_not_hexadecimal fun hc x hx => hno' x hx hc,
    ← List.cons_append, htake, hdrop]

lemma readNumber_seam (hs : Seam old new) {c : Char} {cs : List Char}
    (hc : isDigit c = true ∨ c = '.')
    (h : (readNumber (c :: (cs ++ old))).2 = old) :
    readNumber (c :: (cs ++ new)) = (c :: cs, new) := by
  rw [readNumber] at h
  dsimp only at h
  have happ := readDigits_append (c :: (cs ++ old))
  have hne := readDigits_ne_nil (cs ++ old) hc
  cases hdigits : readDigits (c :: (cs ++ old)) with
  | mk digits rest =>
      rw [hdigits] at h happ hne
      dsimp only at h happ hne
      obtain ⟨d, ds, rfl⟩ := List.exists_cons_of_ne_nil hne
      -- the suffix stands between the digits and the seam
      have hrest : rest = rest.takeWhile isNumberSuffix ++ old := by
        conv_lhs => rw [← List.takeWhile_append_dropWhile
          (p := isNumberSuffix) (l := rest), h]
      have hletters := forall_mem_takeWhile (p := isNumberSuffix) rest
      generalize rest.takeWhile isNumberSuffix = letters at hrest hletters
      subst hrest
      rw [← List.append_assoc, List.cons_append, List.cons_append,
        List.cons.injEq] at happ
      obtain ⟨rfl, htail⟩ := happ
      obtain rfl := List.append_cancel_right htail
      have hstop := hs.stops (p := isNumberSuffix) (by decide)
        (h ▸ head?_dropWhile (letters ++ old))
      rw [List.append_assoc] at hdigits ⊢
      rw [readNumber, readDigits_seam (hs.append letters) (by rw [hdigits]),
        takeWhile_append_of_stop hletters hstop,
        dropWhile_append_of_stop hletters hstop]
      rfl

lemma readArguments_of_open {cs rest : List Char}
    (h : cs.dropWhile isBlank = '(' :: rest) :
    readArguments cs = (cs.takeWhile isBlank ++ '(' :: (readGroup 1 rest).1,
      (readGroup 1 rest).2) := by
  simp only [readArguments, h]

lemma readArguments_of_not_open {cs : List Char}
    (h : (cs.dropWhile isBlank).head? ≠ some '(') :
    readArguments cs = ([], cs) := by
  unfold readArguments
  split
  · rename_i heq
    exact absurd (by rw [heq]; rfl) h
  · rfl

/-- The arguments of a word are read up to their end, or none are. -/
lemma readArguments_seam (hs : Seam old new)
    (h : (readArguments (raw ++ old)).2 = old) :
    readArguments (raw ++ new) = (raw, new) := by
  have happ := readArguments_append (raw ++ old)
  rw [h] at happ
  have hraw := List.append_cancel_right happ
  by_cases hopen : ((raw ++ old).dropWhile isBlank).head? = some '('
  · obtain ⟨rest, hdrop⟩ := List.head?_eq_some_iff.mp hopen
    rw [readArguments_of_open hdrop] at h hraw
    have hblanks := forall_mem_takeWhile (p := isBlank) (raw ++ old)
    have happ := readGroup_append 1 rest
    dsimp only at h hraw
    generalize (raw ++ old).takeWhile isBlank = blanks at hraw hblanks
    rw [h] at happ
    generalize (readGroup 1 rest).1 = inner at hraw happ
    rw [← happ] at h
    rw [← hraw, List.append_assoc, List.cons_append]
    have hstop : ∀ c ∈ ('(' :: (inner ++ new)).head?, isBlank c = false := by
      rintro c hc
      exact Option.some.inj hc ▸ by decide
    rw [readArguments_of_open (dropWhile_append_of_stop hblanks hstop),
      takeWhile_append_of_stop hblanks hstop,
      readGroup_seam hs.ne_nil h]
  · rw [readArguments_of_not_open hopen] at h hraw
    obtain rfl : raw = [] := hraw.symm
    exact readArguments_of_not_open fun hnew => hopen (hs.group hnew)

/-- A run with some text between it and the seam. -/
lemma span_more_seam (hs : Seam old new) {p : Char → Bool}
    (hp : p ' ' = false) {more : List Char}
    (h : (raw ++ old).dropWhile p = more ++ old) :
    (raw ++ new).takeWhile p = (raw ++ old).takeWhile p
      ∧ (raw ++ new).dropWhile p = more ++ new := by
  have happ := List.takeWhile_append_dropWhile (p := p) (l := raw ++ old)
  rw [h, ← List.append_assoc] at happ
  have hraw := List.append_cancel_right happ
  rw [← hraw, List.append_assoc, List.append_assoc]
  rw [← hraw, List.append_assoc] at h
  obtain ⟨hold, htake, hdrop⟩ := span_seam h ((hs.append more).stops hp)
  exact ⟨htake.trans hold.symm, hdrop⟩

/-- A word is read up to its end, or to that of its arguments. -/
lemma readWord_seam {rules : MacroRules} (hs : Seam old new)
    (h : (readWord rules (raw ++ old)).2 = old) :
    readWord rules (raw ++ new)
      = ((readWord rules (raw ++ old)).1, new) := by
  simp only [readWord] at h ⊢
  split at h
  · rename_i kind hrole
    obtain ⟨htake, hdrop⟩ := span_more_seam hs (by decide)
      (show (raw ++ old).dropWhile isWordChar = [] ++ old from h)
    simp only [htake, hdrop, hrole, List.nil_append]
  · rename_i hrole
    obtain ⟨htake, hdrop⟩ := span_more_seam hs (by decide)
      (show (raw ++ old).dropWhile isWordChar = [] ++ old from h)
    simp only [htake, hdrop, hrole, List.nil_append]
  · rename_i hrole
    have happ := readArguments_append ((raw ++ old).dropWhile isWordChar)
    rw [h] at happ
    obtain ⟨htake, hdrop⟩ := span_more_seam hs (by decide) happ.symm
    rw [← happ] at h
    simp only [htake, hdrop, hrole, readArguments_seam hs h]

/-- Behind an at sign that stands alone no string and no name begins. -/
lemma not_name_of_readAt {o : Char} {os : List Char}
    (h : (readAt (o :: os)).2 = o :: os) :
    o ≠ '"' ∧ isNameStart o = false := by
  constructor
  · rintro rfl
    rw [readAt, if_pos rfl] at h
    have hlen := congrArg List.length (readQuoted_append '"' os)
    rw [show (readQuoted '"' os).rest = '"' :: os from h] at hlen
    simp only [List.length_append, List.length_cons] at hlen
    omega
  · by_contra hname
    rw [Bool.not_eq_false] at hname
    have hquote : o ≠ '"' := by
      rintro rfl
      exact absurd hname (by decide)
    rw [readAt, if_neg hquote, if_pos hname] at h
    have hstop := head?_dropWhile (p := isWordChar) (o :: os)
    rw [show (o :: os).dropWhile isWordChar = o :: os from h] at hstop
    exact absurd (isWordChar_of_isNameStart hname) (by simp [hstop o rfl])

/-- What an at sign starts is read up to its end. -/
lemma readAt_seam (hs : Seam old new)
    (h : (readAt (raw ++ old)).2 = old) :
    readAt (raw ++ new) = ((readAt (raw ++ old)).1, new) := by
  cases raw with
  | nil =>
      obtain ⟨o, os, n, ns, rfl, rfl, hn⟩ := hs.exists_cons
      obtain ⟨hquote, hname⟩ := not_name_of_readAt h
      have hn' : n ≠ '"' ∧ isNameStart n = false := by
        rcases hn with rfl | ⟨rfl, -⟩
        · exact ⟨hquote, hname⟩
        · decide
      rw [List.nil_append, List.nil_append, readAt, readAt, if_neg hquote,
        if_neg hn'.1, if_neg (Bool.eq_false_iff.mp hname),
        if_neg (Bool.eq_false_iff.mp hn'.2)]
  | cons d ds =>
      rw [List.cons_append] at h ⊢
      rw [List.cons_append]
      by_cases hd : d = '"'
      · simp only [readAt, if_pos hd] at h ⊢
        exact quotedLexeme_seam (by decide) hs.ne_nil h
      by_cases hname : isNameStart d = true
      · simp only [readAt, if_neg hd, if_pos hname, ← List.cons_append]
          at h ⊢
        obtain ⟨hold, htake, hdrop⟩ := span_seam h (hs.stops (by decide))
        rw [hold, htake, hdrop]
      · simp only [readAt, if_neg hd, if_neg hname] at h
        have := congrArg List.length h
        simp only [List.length_cons, List.length_append] at this
        omega

/-- Three points are read, or one character. -/
lemma readPunctuation_cases (c : Char) (cs : List Char) :
    (c = '.' ∧ ∃ rest, cs = '.' :: '.' :: rest ∧ readPunctuation c cs
        = (⟨['.', '.', '.'], some (.ellipsis, "...")⟩, rest))
      ∨ (¬ (c = '.' ∧ ['.', '.'] <+: cs) ∧ readPunctuation c cs
        = (⟨[c], some (punctuationKind c, String.singleton c)⟩, cs)) := by
  unfold readPunctuation
  split
  · exact .inl ⟨rfl, _, rfl, rfl⟩
  · rename_i hpoints
    refine .inr ⟨?_, rfl⟩
    rintro ⟨rfl, ds, rfl⟩
    exact hpoints ds rfl rfl

lemma readPunctuation_seam (hs : Seam old new) {c : Char}
    (h : (readPunctuation c (raw ++ old)).2 = old) :
    readPunctuation c (raw ++ new)
      = ((readPunctuation c (raw ++ old)).1, new) := by
  rcases readPunctuation_cases c (raw ++ old)
    with ⟨rfl, rest, hrest, hread⟩ | ⟨hpoints, hread⟩
  · rw [hread] at h ⊢
    dsimp only at h
    subst h
    obtain rfl : raw = ['.', '.'] :=
      List.append_cancel_right (hrest.trans (by rfl))
    rfl
  · rw [hread] at h ⊢
    obtain rfl : raw = [] := by simpa using h
    rcases readPunctuation_cases c new with ⟨rfl, rest, rfl, -⟩ | ⟨-, hnew⟩
    · exact absurd ⟨rfl, hs.points ⟨rest, rfl⟩⟩ hpoints
    · exact hnew

end Readers

/-- A blank that was first stays first. -/
lemma Seam.head_of_blank {old new : List Char} (h : Seam old new)
    (hold : ∀ c ∈ old.head?, isBlank c = true) : new.head? = old.head? := by
  obtain ⟨o, os, n, ns, rfl, rfl, rfl | ⟨-, hblank⟩⟩ := h.exists_cons
  · rfl
  · exact absurd (hold o rfl) (by simp [hblank])

/-- A number that begins with a point goes on behind it. -/
lemma readNumber_point_ne {o : Char} {os : List Char}
    (h : isDigit o = true) : (readNumber ('.' :: o :: os)).2 ≠ o :: os := by
  intro heq
  rw [readNumber, readDigits_of_not_hexadecimal
      (fun h => absurd h (by decide)),
    List.dropWhile_cons_of_pos (by decide),
    List.dropWhile_cons_of_pos (isNumberPart_of_isDigit h)] at heq
  have hlen := congrArg List.length heq
  have hdrop := (List.dropWhile_sublist (p := isNumberPart) (l := os)).length_le
  have := (List.dropWhile_sublist (p := isNumberSuffix)
    (l := os.dropWhile isNumberPart)).length_le
  simp only [List.length_cons] at hlen
  omega

/-! ### Starts -/

/-- The start of a lexeme: what its first characters say of its reader. -/
inductive LexemeStart where
  | blank | lineComment | blockComment | directive | atSign | string | char
  | number | word | mark

/-- How the text `c :: cs` starts. -/
def lexemeStart (c : Char) (cs : List Char) : LexemeStart :=
  if isBlank c then .blank
  else if c = '/' ∧ cs.head? = some '/' then .lineComment
  else if c = '/' ∧ cs.head? = some '*' then .blockComment
  else if c = '#' then .directive
  else if c = '@' then .atSign
  else if c = '"' then .string
  else if c = '\'' ∧ 2 ≤ cs.length then .char
  else if isDigit c ∨ (c = '.' ∧ cs.head?.any isDigit) then .number
  else if isNameStart c then .word
  else .mark

/-- The reader of each start. -/
def LexemeStart.read (rules : MacroRules) (c : Char) (cs : List Char) :
    LexemeStart → Lexeme × List Char
  | .blank => (⟨c :: cs.takeWhile isBlank, none⟩, cs.dropWhile isBlank)
  | .lineComment =>
      (⟨c :: cs.takeWhile (· ≠ '\n'), none⟩, cs.dropWhile (· ≠ '\n'))
  | .blockComment =>
      (⟨'/' :: '*' :: (readBlockComment cs.tail).1, none⟩,
        (readBlockComment cs.tail).2)
  | .directive =>
      (⟨(readDirective (c :: cs)).raw,
          some (.directive, directiveText (readDirective (c :: cs)).body)⟩,
        (readDirective (c :: cs)).rest)
  | .atSign => readAt cs
  | .string => quotedLexeme .string [] '"' cs
  | .char => quotedLexeme .char [] '\'' cs
  | .number =>
      (⟨(readNumber (c :: cs)).1,
          some (.number, String.ofList (readNumber (c :: cs)).1)⟩,
        (readNumber (c :: cs)).2)
  | .word => readWord rules (c :: cs)
  | .mark => readPunctuation c cs

lemma readLexeme_eq_read (rules : MacroRules) (c : Char) (cs : List Char) :
    readLexeme rules c cs = (lexemeStart c cs).read rules c cs := by
  unfold readLexeme lexemeStart
  split_ifs <;> rfl

section Starts

variable {c : Char} {cs : List Char}

lemma isBlank_of_lexemeStart (h : lexemeStart c cs = .blank) :
    isBlank c = true := by
  unfold lexemeStart at h
  split_ifs at h with hblank
  exact hblank

lemma head?_of_lexemeStart_blockComment
    (h : lexemeStart c cs = .blockComment) : cs.head? = some '*' := by
  unfold lexemeStart at h
  split_ifs at h with _ _ hblock
  exact hblock.2

lemma digit_of_lexemeStart_number (h : lexemeStart c cs = .number) :
    isDigit c = true ∨ c = '.' := by
  unfold lexemeStart at h
  split_ifs at h with _ _ _ _ _ _ _ hnumber
  exact hnumber.imp_right And.left

lemma lexemeStart_slash_slash (h : cs.head? = some '/') :
    lexemeStart '/' cs = .lineComment := by
  rw [lexemeStart, if_neg (by decide), if_pos ⟨rfl, h⟩]

lemma lexemeStart_slash_star (h : cs.head? = some '*') :
    lexemeStart '/' cs = .blockComment := by
  rw [lexemeStart, if_neg (by decide), if_neg (by simp [h]),
    if_pos ⟨rfl, h⟩]

lemma lexemeStart_quote (h : 2 ≤ cs.length) :
    lexemeStart '\'' cs = .char := by
  simp [lexemeStart, h]
  decide

lemma lexemeStart_point (h : cs.head?.any isDigit = true) :
    lexemeStart '.' cs = .number := by
  simp [lexemeStart, h]
  decide

lemma lexemeStart_loneQuote (h : ¬ 2 ≤ cs.length) :
    lexemeStart '\'' cs = .mark := by
  have hmark : isBlank '\'' = false ∧ isDigit '\'' = false
      ∧ isNameStart '\'' = false := by decide
  simp [lexemeStart, h, hmark]

end Starts

/-! ### Lexemes -/

section Lexemes

variable {c : Char} {cs old new : List Char}

/-- The first character stays where something stands in front of it, or
where it was the same. -/
lemma head?_append_seam (heads : new.head? = old.head?) (cs : List Char) :
    (cs ++ new).head? = (cs ++ old).head? := by
  cases cs with
  | nil => exact heads
  | cons d ds => rfl

/-- A character that is no blank comes first only if it did so before. -/
lemma Seam.head?_of_ne_blank (hs : Seam old new) {d : Char} (hd : d ≠ ' ')
    (hnew : (cs ++ new).head? = some d) : (cs ++ old).head? = some d := by
  obtain ⟨e, he, rfl⟩ := (hs.append cs).head_of_new (q := (· = d))
    (Ne.symm hd) ⟨d, hnew, rfl⟩
  exact he

/-- A line comment ends at the line break that the text behind it begins
with. -/
lemma lineComment_seam (hs : Seam old new)
    (h : (cs ++ old).dropWhile (· ≠ '\n') = old) :
    new.head? = old.head? ∧ (cs ++ old).takeWhile (· ≠ '\n') = cs
      ∧ (cs ++ new).takeWhile (· ≠ '\n') = cs
      ∧ (cs ++ new).dropWhile (· ≠ '\n') = new := by
  have hstop := head?_dropWhile (p := (· ≠ '\n')) (cs ++ old)
  rw [h] at hstop
  have heads : new.head? = old.head? := by
    refine hs.head_of_blank fun d hd => ?_
    have hfeed : d = '\n' := by simpa using hstop d hd
    exact hfeed ▸ by decide
  have hstop' : (∀ d ∈ old.head?, decide (d ≠ '\n') = false) →
      ∀ d ∈ new.head?, decide (d ≠ '\n') = false := fun hold => heads ▸ hold
  exact ⟨heads, span_seam h hstop'⟩

/-- So does a directive. -/
lemma directive_seam (hs : Seam old new)
    (h : (readDirective (c :: (cs ++ old))).rest = old) :
    readDirective (c :: (cs ++ new))
      = { readDirective (c :: (cs ++ old)) with rest := new } := by
  have hfeed : old.head? = some '\n' := by
    obtain ⟨o, os, -, -, hold, -⟩ := hs.exists_cons
    have hends := head?_rest_readDirective (c :: (cs ++ old))
    rw [h] at hends
    rw [hold, hends o (by rw [hold]; rfl)]
    rfl
  have heads := hs.head_of_blank fun d hd => by
    rw [hfeed] at hd
    exact Option.some.inj hd ▸ by decide
  rw [← List.cons_append, readDirective_seam hfeed (heads.trans hfeed) h]
  rfl

/-- A block comment has its star in front of what follows it. -/
lemma blockComment_seam (hs : Seam old new)
    (hstar : (cs ++ old).head? = some '*')
    (h : (readBlockComment (cs ++ old).tail).2 = old) :
    (cs ++ new).head? = some '*' ∧ ∃ ds, cs = '*' :: ds
      ∧ ∀ more, readBlockComment (ds ++ more) = (ds, more) := by
  cases cs with
  | nil =>
      -- the star would stand behind the comment
      obtain ⟨o, os, -, -, rfl, -⟩ := hs.exists_cons
      have hlen := congrArg List.length (readBlockComment_append os)
      rw [show (readBlockComment os).2 = o :: os from h,
        List.length_append, List.length_cons] at hlen
      omega
  | cons d ds =>
      obtain rfl : d = '*' := Option.some.inj hstar
      exact ⟨rfl, ds, rfl, fun _ => readBlockComment_seam hs.ne_nil h⟩

/-- Each reader takes the same in front of both texts. -/
lemma LexemeStart.read_seam {rules : MacroRules} (hs : Seam old new)
    (hblank : isBlank c = false ∨ new.head? = old.head?)
    {start : LexemeStart} (hstart : lexemeStart c (cs ++ old) = start)
    (h : (start.read rules c (cs ++ old)).2 = old) :
    start.read rules c (cs ++ new)
      = ((start.read rules c (cs ++ old)).1, new) := by
  cases start with
  | blank =>
      have heads := hblank.resolve_left
        (by simp [isBlank_of_lexemeStart hstart])
      have hstop : (∀ d ∈ old.head?, isBlank d = false) →
          ∀ d ∈ new.head?, isBlank d = false := fun hold => heads ▸ hold
      obtain ⟨htake, htake', hdrop⟩ := span_seam h hstop
      rw [read, read, htake, htake', hdrop]
  | lineComment =>
      obtain ⟨-, htake, htake', hdrop⟩ := lineComment_seam hs h
      rw [read, read, htake, htake', hdrop]
  | blockComment =>
      obtain ⟨-, ds, rfl, hread⟩ :=
        blockComment_seam hs (head?_of_lexemeStart_blockComment hstart) h
      rw [read, read, List.cons_append, List.cons_append, List.tail_cons,
        List.tail_cons, hread, hread]
  | directive => rw [read, read, directive_seam hs h]
  | atSign => exact readAt_seam hs h
  | string | char => exact quotedLexeme_seam (by decide) hs.ne_nil h
  | number =>
      have hread := readNumber_append (c :: (cs ++ old))
      rw [show (readNumber (c :: (cs ++ old))).2 = old from h,
        ← List.cons_append] at hread
      have hraw := List.append_cancel_right hread
      rw [read, read, readNumber_seam hs
        (digit_of_lexemeStart_number hstart) h]
      simp only [← List.cons_append, hraw]
  | word =>
      have hword : (readWord rules (c :: cs ++ old)).2 = old := h
      exact readWord_seam hs hword
  | mark => exact readPunctuation_seam hs h

/-- A line comment in front of one text is one in front of the other. -/
lemma startsLineComment_seam {rules : MacroRules} (hs : Seam old new)
    (h : (readLexeme rules c (cs ++ old)).2 = old) :
    (c = '/' ∧ (cs ++ new).head? = some '/')
      ↔ (c = '/' ∧ (cs ++ old).head? = some '/') := by
  refine and_congr_right ?_
  rintro rfl
  refine ⟨hs.head?_of_ne_blank (by decide), fun hslash => ?_⟩
  rw [readLexeme_eq_read, lexemeStart_slash_slash hslash] at h
  exact (head?_append_seam (lineComment_seam hs h).1 cs).trans hslash

lemma startsBlockComment_seam {rules : MacroRules} (hs : Seam old new)
    (h : (readLexeme rules c (cs ++ old)).2 = old) :
    (c = '/' ∧ (cs ++ new).head? = some '*')
      ↔ (c = '/' ∧ (cs ++ old).head? = some '*') := by
  refine and_congr_right ?_
  rintro rfl
  refine ⟨hs.head?_of_ne_blank (by decide), fun hstar => ?_⟩
  rw [readLexeme_eq_read, lexemeStart_slash_star hstar] at h
  exact (blockComment_seam hs hstar h).1

/-- A quote that does not stand alone opens a character in front of
both. -/
lemma startsChar_seam {rules : MacroRules} (hs : Seam old new)
    (h : (readLexeme rules c (cs ++ old)).2 = old)
    (hquote : (readLexeme rules c (cs ++ old)).1.token?
      ≠ some (.unknown, "'")) :
    (c = '\'' ∧ 2 ≤ (cs ++ new).length)
      ↔ (c = '\'' ∧ 2 ≤ (cs ++ old).length) := by
  refine and_congr_right ?_
  rintro rfl
  have hlong : 2 ≤ (cs ++ old).length := by
    by_contra hshort
    rw [readLexeme_eq_read, lexemeStart_loneQuote hshort] at hquote
    exact hquote rfl
  refine iff_of_true ?_ hlong
  rw [readLexeme_eq_read, lexemeStart_quote hlong] at h
  have hcs : cs ≠ [] := by
    rintro rfl
    exact quotedLexeme_ne hs.ne_nil h
  have hlen := List.length_pos_iff.mpr hcs
  obtain ⟨-, -, n, ns, -, rfl, -⟩ := hs.exists_cons
  rw [List.length_append, List.length_cons]
  omega

/-- A point in front of a digit stands in front of it still. -/
lemma startsNumber_seam {rules : MacroRules} (hs : Seam old new)
    (h : (readLexeme rules c (cs ++ old)).2 = old) :
    (isDigit c = true ∨ (c = '.' ∧ (cs ++ new).head?.any isDigit = true))
      ↔ (isDigit c = true
        ∨ (c = '.' ∧ (cs ++ old).head?.any isDigit = true)) := by
  refine or_congr_right (and_congr_right ?_)
  rintro rfl
  constructor
  · intro hdigit
    obtain ⟨d, hd, hdd⟩ := (hs.append cs).head_of_new
      (q := fun d => isDigit d = true) (by decide)
      ((Option.any_eq_true _ _).mp hdigit)
    exact (Option.any_eq_true _ _).mpr ⟨d, hd, hdd⟩
  · intro hdigit
    cases cs with
    | nil =>
        obtain ⟨o, os, -, -, rfl, -⟩ := hs.exists_cons
        rw [readLexeme_eq_read, lexemeStart_point hdigit] at h
        exact absurd h (readNumber_point_ne (by simpa using hdigit))
    | cons d ds => exact hdigit

/-- The text starts as it did. -/
lemma lexemeStart_seam {rules : MacroRules} (hs : Seam old new)
    (h : (readLexeme rules c (cs ++ old)).2 = old)
    (hquote : (readLexeme rules c (cs ++ old)).1.token?
      ≠ some (.unknown, "'")) :
    lexemeStart c (cs ++ new) = lexemeStart c (cs ++ old) := by
  simp only [lexemeStart, startsLineComment_seam hs h,
    startsBlockComment_seam hs h, startsChar_seam hs h hquote,
    startsNumber_seam hs h]

/-- A lexeme in front of a seam is read as it was.  Blanks would run on into
a blank, and with more text behind it, a quote that stood alone may open a
character. -/
theorem readLexeme_seam {rules : MacroRules} (hs : Seam old new)
    (hblank : isBlank c = false ∨ new.head? = old.head?)
    (h : (readLexeme rules c (cs ++ old)).2 = old)
    (hquote : (readLexeme rules c (cs ++ old)).1.token?
      ≠ some (.unknown, "'")) :
    readLexeme rules c (cs ++ new)
      = ((readLexeme rules c (cs ++ old)).1, new) := by
  have hstart := lexemeStart_seam hs h hquote
  rw [readLexeme_eq_read] at h ⊢
  rw [readLexeme_eq_read, hstart]
  exact LexemeStart.read_seam hs hblank rfl h

end Lexemes

end HeaderBinding
