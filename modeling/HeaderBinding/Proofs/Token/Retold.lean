/-
A text with each of its tokens put in other words.

* `retold`: that text; `Laid.retold_eq_iff`: where no token gets longer,
  two such texts are the same only token by token;
* `Laid.replaceWords_eq`: replacing words in tokens that are laid out
  replaces them in each token;
* `Laid.joinShifts`: the halves of a shift stay laid out when they are
  joined again.
-/
import HeaderBinding.Proofs.Text.Replaced
import HeaderBinding.Proofs.Token.Expressions

namespace HeaderBinding

variable {rules : MacroRules} {fs : List Face} {cs : List Char}

/-! ### Texts that are told again -/

/-- The text with each token put in other words, and everything else as it
is. -/
def retold (rules : MacroRules) (tell : Face → List Char)
    (cs : List Char) : List Char :=
  (lexemes rules cs).flatMap fun l => (l.token?.map tell).getD l.raw

variable {tell tell' : Face → List Char}

@[simp] lemma retold_nil : retold rules tell [] = [] := by
  rw [retold, lexemes, List.flatMap_nil]

lemma retold_of_token {c : Char} {cs raw rest : List Char} {f : Face}
    (h : readLexeme rules c cs = (⟨raw, some f⟩, rest)) :
    retold rules tell (c :: cs) = tell f ++ retold rules tell rest := by
  rw [retold, lexemes, h]
  rfl

/-- Blanks at the start stay. -/
lemma retold_takeWhile_isBlank (cs : List Char) :
    retold rules tell cs
      = cs.takeWhile isBlank
        ++ retold rules tell (cs.dropWhile isBlank) := by
  cases cs with
  | nil => rfl
  | cons c cs =>
      by_cases hc : isBlank c = true
      · rw [List.takeWhile_cons_of_pos hc, List.dropWhile_cons_of_pos hc,
          retold, lexemes, readLexeme, if_pos hc]
        rfl
      · rw [List.takeWhile_cons_of_neg hc, List.dropWhile_cons_of_neg hc]
        rfl

lemma retold_blank {c : Char} (hc : isBlank c = true) (cs : List Char) :
    retold rules tell (c :: cs) = c :: retold rules tell cs := by
  rw [retold_takeWhile_isBlank (c :: cs), List.takeWhile_cons_of_pos hc,
    List.dropWhile_cons_of_pos hc, List.cons_append,
    ← retold_takeWhile_isBlank]

lemma retold_loneQuote : retold rules tell ['\''] = tell loneQuote := by
  rw [retold_of_token readLexeme_loneQuote, retold_nil, List.append_nil]

/-- Put in words that are no longer, the text is no longer; and it is the
same only if each token is. -/
lemma Laid.retold_le_and_eq_iff (h : Laid rules fs cs)
    (hle : ∀ f ∈ fs, (tell f).length ≤ (tell' f).length) :
    (retold rules tell cs).length ≤ (retold rules tell' cs).length
      ∧ (retold rules tell cs = retold rules tell' cs
        ↔ ∀ f ∈ fs, tell f = tell' f) := by
  induction h with
  | nil =>
      rw [retold_nil, retold_nil]
      exact ⟨Nat.le_refl _, iff_of_true rfl fun f hf => nomatch hf⟩
  | quote =>
      rw [retold_loneQuote, retold_loneQuote]
      simpa using hle
  | blank _ ih =>
      rw [retold_blank (by decide), retold_blank (by decide),
        List.cons.injEq, List.length_cons, List.length_cons]
      exact ⟨Nat.succ_le_succ (ih hle).1,
        (and_iff_right rfl).trans (ih hle).2⟩
  | token hf ha _ ih =>
      obtain ⟨hlen, hles⟩ := List.forall_mem_cons.mp hle
      obtain ⟨hrest, heq⟩ := ih hles
      obtain ⟨c, cs, hcs, hread⟩ := hf.exists_readLexeme ha
      rw [hcs, List.cons_append, retold_of_token hread,
        retold_of_token hread, List.length_append, List.length_append,
        List.forall_mem_cons, ← heq]
      refine ⟨Nat.add_le_add hlen hrest, fun happ => ?_, ?_⟩
      · have hsum := congrArg List.length happ
        rw [List.length_append, List.length_append] at hsum
        exact List.append_inj happ (by omega)
      · rintro ⟨hfirst, hmore⟩
        rw [hfirst, hmore]

theorem Laid.retold_eq_iff (h : Laid rules fs cs)
    (hle : ∀ f ∈ fs, (tell f).length ≤ (tell' f).length) :
    retold rules tell cs = retold rules tell' cs
      ↔ ∀ f ∈ fs, tell f = tell' f :=
  (h.retold_le_and_eq_iff hle).2

/-! ### Words in tokens -/

/-- No word goes on from a token into what is apart from it. -/
lemma Apart.severed {as bs : List Char} (h : Apart as bs) :
    Severed as bs := by
  intro a ha b hb hword
  rcases h with ⟨m, hm, rfl⟩ | hends
  · have hmark : ∀ m ∈ loneMarks, isWordChar m = false :=
      List.forall_iff_forall_mem.mp (by decide)
    obtain rfl : m = a := Option.some.inj ha
    exact absurd hword (by simp [hmark m hm])
  · exact hends.head (P := (isWordChar · = false)) (by decide) b hb

/-- **Replacing words, token by token.**  In tokens that are laid out, words
are replaced in each token. -/
theorem Laid.replaceWords_eq {rs : List (String × String)}
    (hr : Renaming rs) (h : Laid rules fs cs) :
    replaceWords rs cs
      = retold rules (fun f => replaceWords rs f.2.toList) cs := by
  induction h with
  | nil =>
      have hgap : IsGap [] := fun c hc => absurd hc List.not_mem_nil
      rw [replaceWords_gap hr hgap, retold_nil]
  | quote =>
      rw [retold_loneQuote]
      rfl
  | @blank _ cs _ ih =>
      have hgap : IsGap [' '] := by decide
      have hsevered : Severed [' '] cs := by
        intro a ha b hb hword
        obtain rfl : ' ' = a := Option.some.inj ha
        exact absurd hword (by decide)
      rw [retold_blank (by decide), ← ih]
      exact (replaceWords_append hr hsevered).trans
        (congrArg (· ++ _) (replaceWords_gap hr hgap))
  | @token f _ rest hf ha _ ih =>
      obtain ⟨c, cs, hcs, hread⟩ := hf.exists_readLexeme ha
      rw [replaceWords_append hr ha.severed, ih, hcs, List.cons_append,
        retold_of_token hread, hcs]

/-! ### Shifts -/

section Shifts

variable {c : Char}

/-- The text with a blank between two of a character left out. -/
def withoutBlankIn (c : Char) (cs : List Char) : List Char :=
  replaceAll [c, ' ', c] [c, c] cs

lemma withoutBlankIn_cons {d : Char} (h : d ≠ c) (cs : List Char) :
    withoutBlankIn c (d :: cs) = d :: withoutBlankIn c cs := by
  have hp : [c, ' ', c].isPrefixOf (d :: cs) = false := by
    simp [List.isPrefixOf, Ne.symm h]
  rw [withoutBlankIn, replaceAll, replaceFrom, hp,
    if_neg Bool.false_ne_true]
  rfl

lemma withoutBlankIn_append {as : List Char} (h : c ∉ as)
    (cs : List Char) :
    withoutBlankIn c (as ++ cs) = as ++ withoutBlankIn c cs := by
  induction as with
  | nil => rfl
  | cons a as ih =>
      rw [List.mem_cons, not_or] at h
      rw [List.cons_append, withoutBlankIn_cons (Ne.symm h.1), ih h.2]
      rfl

lemma withoutBlankIn_pair (cs : List Char) :
    withoutBlankIn c (c :: ' ' :: c :: cs)
      = c :: c :: withoutBlankIn c cs := by
  rw [withoutBlankIn, replaceAll, replaceFrom, if_pos (by simp)]
  rfl

lemma withoutBlankIn_of_not_pair (h : ¬ [' ', c] <+: cs) :
    withoutBlankIn c (c :: cs) = c :: withoutBlankIn c cs := by
  have hp : [c, ' ', c].isPrefixOf (c :: cs) = false := by
    rw [Bool.eq_false_iff, Ne, List.isPrefixOf_iff_prefix,
      List.cons_prefix_cons]
    exact fun hp => h hp.2
  rw [withoutBlankIn, replaceAll, replaceFrom, hp,
    if_neg Bool.false_ne_true]
  rfl

/-- The first character stays. -/
lemma head?_withoutBlankIn (cs : List Char) :
    (withoutBlankIn c cs).head? = cs.head? := by
  cases cs with
  | nil => rfl
  | cons d cs =>
      rw [withoutBlankIn, replaceAll, replaceFrom]
      split
      · rename_i hp
        rw [List.isPrefixOf_iff_prefix, List.cons_prefix_cons] at hp
        rw [hp.1]
        rfl
      · rfl

/-- The token that a mark is, and what is laid out behind it. -/
lemma Laid.exists_of_mark (hc : c ∈ marks) (h : Laid rules fs (c :: cs)) :
    ∃ f gs, fs = f :: gs ∧ Readable rules f ∧ f.2.toList = [c]
      ∧ Laid rules gs cs := by
  generalize htext : c :: cs = text at h
  cases h with
  | nil => cases htext
  | quote =>
      obtain ⟨rfl, -⟩ := List.cons.inj htext
      exact absurd hc (by decide)
  | blank h =>
      obtain ⟨rfl, -⟩ := List.cons.inj htext
      exact absurd hc (by decide)
  | @token f gs rest hf ha h =>
      obtain ⟨d, ds, hds⟩ := List.exists_cons_of_ne_nil hf.toList_ne_nil
      rw [hds, List.cons_append, List.cons.injEq] at htext
      obtain ⟨rfl, hrest⟩ := htext
      have hmark := (Shape.eq_mark hf hc (by rw [hds]; simp)).1
      obtain ⟨-, rfl⟩ := List.cons.inj (hds.symm.trans hmark)
      rw [List.nil_append] at hrest
      exact ⟨f, gs, rfl, hf, hmark, hrest ▸ h⟩

/-- What is laid out behind a blank. -/
lemma Laid.of_blank (h : Laid rules fs (' ' :: cs)) : Laid rules fs cs := by
  generalize htext : ' ' :: cs = text at h
  cases h with
  | nil => cases htext
  | quote => exact absurd (List.cons.inj htext).1 (by decide)
  | blank h =>
      obtain ⟨-, rfl⟩ := List.cons.inj htext
      exact h
  | token hf =>
      have hhead := hf.isBlank_head
      obtain ⟨d, ds, hds⟩ := List.exists_cons_of_ne_nil hf.toList_ne_nil
      rw [hds, List.cons_append, List.cons.injEq] at htext
      rw [hds, ← htext.1] at hhead
      exact absurd (hhead ' ' rfl) (by decide)

/-- A mark in front of what is laid out. -/
lemma Laid.mark {f : Face} (hf : Readable rules f) (hc : c ∈ marks)
    (hmark : f.2.toList = [c]) (h : Laid rules fs cs) :
    Laid rules (f :: fs) (c :: cs) := by
  have hlone : c ∈ loneMarks :=
    List.mem_cons_of_mem _ (List.mem_cons_of_mem _ hc)
  have hlaid := Laid.token hf (.inl ⟨c, hlone, hmark⟩) h
  rwa [hmark, List.singleton_append] at hlaid

/-- Tokens stay laid out where a blank between two marks is left out. -/
lemma Laid.withoutBlankIn (hc : c ∈ marks) (h : Laid rules fs cs) :
    Laid rules fs (withoutBlankIn c cs) := by
  have hquote : '\'' ≠ c := by
    rintro rfl
    exact absurd hc (by decide)
  have hblank : ' ' ≠ c := by
    rintro rfl
    exact absurd hc (by decide)
  -- by the length, as two marks may be passed at once
  induction hn : cs.length using Nat.strong_induction_on
    generalizing fs cs with
  | _ n ih =>
      subst hn
      cases h with
      | nil => exact .nil
      | quote =>
          rw [withoutBlankIn_cons hquote]
          exact .quote
      | blank h =>
          rw [withoutBlankIn_cons hblank]
          exact .blank (ih _ (Nat.lt_succ_self _) h rfl)
      | @token f gs rest hf ha h =>
          have hpos := List.length_pos_iff.mpr hf.toList_ne_nil
          have hless : ∀ more : List Char, more.length ≤ rest.length →
              more.length < (f.2.toList ++ rest).length := by
            intro more hle
            rw [List.length_append]
            omega
          by_cases hmem : c ∈ f.2.toList
          · have hmark := (Shape.eq_mark hf hc hmem).1
            by_cases hp : [' ', c] <+: rest
            · obtain ⟨more, rfl⟩ := hp
              obtain ⟨g, gs, rfl, hg, hgmark, hmore⟩ :=
                h.of_blank.exists_of_mark hc
              have hle : more.length ≤ ([' ', c] ++ more).length :=
                (List.suffix_append _ _).length_le
              have hrec := ih _ (hless more hle) hmore rfl
              rw [hmark, List.singleton_append, List.cons_append,
                List.cons_append, List.nil_append, withoutBlankIn_pair]
              exact (hrec.mark hg hc hgmark).mark hf hc hmark
            · have hrec := ih _ (hless rest (Nat.le_refl _)) h rfl
              rw [hmark, List.singleton_append,
                withoutBlankIn_of_not_pair hp]
              exact hrec.mark hf hc hmark
          · have hrec := ih _ (hless rest (Nat.le_refl _)) h rfl
            rw [withoutBlankIn_append hmem]
            refine .token hf (ha.imp_right fun hends d hd => ?_) hrec
            rw [head?_withoutBlankIn] at hd
            exact hends d hd

end Shifts

/-- Shifts that are joined again are laid out as they were. -/
theorem Laid.joinShifts (h : Laid rules fs cs) :
    Laid rules fs (joinShifts cs) :=
  (h.withoutBlankIn (c := '<') (by decide)).withoutBlankIn (by decide)

end HeaderBinding
