/-
The text of a type without its qualifiers.

* `stripQualifiers_word_append`, `stripQualifiers_append_word`: a word that
  is left out may stand at either end;
* `dropTag_cases`: whether a tag stands at the start;
* `bodyLength`: the characters that are neither blanks nor stars; no part
  of a type has more, and `bodyLength_splitGeneric_lt` says which have less;
* `IsBase`: a text as the name of a type is left, with
  `stripQualifiers_pointerTo` and `splitPointers_pointerTo` for the
  pointers to it.
-/
import HeaderBinding.Proofs.Mapping.Words
import HeaderBinding.Proofs.Text.Blanks

namespace HeaderBinding

/-! ### Qualifiers at the ends of a type -/

/-- A word that is left out may stand before a type. -/
theorem stripQualifiers_word_append {w : List Char}
    (hw : w ∈ strippedWords) (cs : List Char) :
    stripQualifiers (w ++ ' ' :: cs) = stripQualifiers cs := by
  have hspace : ∀ c ∈ [' ', ' '], isBlank c = true := by simp [isBlank]
  rw [stripQualifiers, blankOutWords_append_cons strippedWords_isWord _
    (by decide), blankOutWords_word strippedWords_isWord hw]
  exact congrArg dropTag (squeeze_blanks_append hspace _)

/-- It may stand behind it, too. -/
theorem stripQualifiers_append_word {w : List Char}
    (hw : w ∈ strippedWords) (cs : List Char) :
    stripQualifiers (cs ++ ' ' :: w) = stripQualifiers cs := by
  have hspace : ∀ c ∈ [' ', ' '], isBlank c = true := by simp [isBlank]
  rw [stripQualifiers, blankOutWords_append_cons strippedWords_isWord _
    (by decide), blankOutWords_word strippedWords_isWord hw]
  exact congrArg dropTag (squeeze_append_blanks _ hspace)


/-! ### Tags -/

/-- No tag stands at the start. -/
def NoTag (cs : List Char) : Prop :=
  ∀ tag ∈ tagPrefixes, ¬ tag <+: cs

/-- A tag that stands at the start is dropped. -/
lemma dropTag_cases (cs : List Char) :
    (NoTag cs ∧ dropTag cs = cs)
      ∨ ∃ tag ∈ tagPrefixes, cs = tag ++ dropTag cs := by
  rw [dropTag]
  cases h : tagPrefixes.findSome? fun tag => tag.isPrefixOf? cs with
  | none =>
      refine .inl ⟨fun tag htag hpre => ?_, rfl⟩
      obtain ⟨rest, hrest⟩ := hpre
      have hnone := List.findSome?_eq_none_iff.mp h tag htag
      rw [List.isPrefixOf?_eq_some_iff_append_eq.mpr hrest] at hnone
      cases hnone
  | some rest =>
      obtain ⟨tag, htag, hrest⟩ := List.exists_of_findSome?_eq_some h
      rw [List.isPrefixOf?_eq_some_iff_append_eq] at hrest
      exact .inr ⟨tag, htag, hrest.symm⟩

lemma dropTag_of_noTag {cs : List Char} (h : NoTag cs) :
    dropTag cs = cs := by
  rcases dropTag_cases cs with ⟨-, heq⟩ | ⟨tag, htag, heq⟩
  · exact heq
  · exact absurd ⟨_, heq.symm⟩ (h tag htag)

lemma dropTag_tag_append {tag : List Char} (htag : tag ∈ tagPrefixes)
    (cs : List Char) : dropTag (tag ++ cs) = cs := by
  simp only [tagPrefixes, List.map_cons, List.map_nil, List.mem_cons,
    List.not_mem_nil, or_false] at htag
  rcases htag with rfl | rfl | rfl
  all_goals rfl

/-- What stands behind all tags stays as it is. -/
lemma dropTag_append {cs ds : List Char}
    (h : ∀ tag ∈ tagPrefixes, tag <+: cs ++ ds → tag <+: cs) :
    dropTag (cs ++ ds) = dropTag cs ++ ds := by
  rcases dropTag_cases cs with ⟨hno, heq⟩ | ⟨tag, htag, heq⟩
  · rw [heq]
    exact dropTag_of_noTag fun tag htag hpre => hno tag htag (h tag htag hpre)
  · conv_lhs => rw [heq, List.append_assoc]
    exact dropTag_tag_append htag _

lemma Tidy.dropTag {cs : List Char} (h : Tidy cs) : Tidy (dropTag cs) := by
  rcases dropTag_cases cs with ⟨-, heq⟩ | ⟨tag, htag, heq⟩
  · rwa [heq]
  · obtain ⟨word, -, rfl⟩ := tagPrefixes_word tag htag
    rw [heq, List.append_assoc] at h
    exact h.behind_space

lemma tidy_stripQualifiers (cs : List Char) : Tidy (stripQualifiers cs) :=
  (tidy_squeeze _).dropTag


/-! ### Bodies -/

/-- The number of characters that are neither blanks nor stars. -/
def bodyLength (cs : List Char) : Nat :=
  cs.countP fun c => !isPointerMark c

@[simp] lemma bodyLength_append (as bs : List Char) :
    bodyLength (as ++ bs) = bodyLength as + bodyLength bs :=
  List.countP_append

lemma bodyLength_eq_zero {marks : List Char}
    (h : ∀ c ∈ marks, isPointerMark c = true) : bodyLength marks = 0 :=
  List.countP_eq_zero.mpr fun c hc => by simp [h c hc]

lemma bodyLength_le_length (cs : List Char) :
    bodyLength cs ≤ cs.length :=
  List.countP_le_length

lemma isPointerMark_of_isBlank {c : Char} (h : isBlank c = true) :
    isPointerMark c = true := by
  rw [isPointerMark, h, Bool.or_true]

lemma bodyLength_cons_blank {c : Char} (hc : isBlank c = true)
    (cs : List Char) : bodyLength (c :: cs) = bodyLength cs :=
  List.countP_cons_of_neg (by simp [isPointerMark_of_isBlank hc])

lemma bodyLength_cons_congr {as bs : List Char}
    (h : bodyLength as = bodyLength bs) (c : Char) :
    bodyLength (c :: as) = bodyLength (c :: bs) := by
  rw [← List.singleton_append, bodyLength_append, h,
    ← bodyLength_append, List.singleton_append]

@[simp] lemma bodyLength_squeeze (cs : List Char) :
    bodyLength (squeeze cs) = bodyLength cs :=
  apply_squeeze bodyLength_cons_blank bodyLength_cons_congr cs

lemma bodyLength_blankOutWords_le (words : List (List Char))
    (cs : List Char) :
    bodyLength (blankOutWords words cs) ≤ bodyLength cs := by
  induction cs using run_induction with
  | nil => exact Nat.le_refl 0
  | run b run rest hne hu hrest ih =>
      rw [blankOutWords_run hne hu hrest, bodyLength_append,
        bodyLength_append]
      refine Nat.add_le_add ?_ ih
      split
      · exact Nat.zero_le _
      · exact Nat.le_refl _

lemma tagPrefixes_bodyLength : ∀ tag ∈ tagPrefixes, 0 < bodyLength tag := by
  decide +kernel

/-- A tag that is dropped leaves less. -/
lemma bodyLength_dropTag (cs : List Char) :
    (NoTag cs ∧ dropTag cs = cs) ∨ bodyLength (dropTag cs) < bodyLength cs := by
  rcases dropTag_cases cs with h | ⟨tag, htag, heq⟩
  · exact .inl h
  · have := tagPrefixes_bodyLength tag htag
    have hsum := congrArg bodyLength heq
    rw [bodyLength_append] at hsum
    exact .inr (by omega)

/-- Qualifiers that are left out leave no more, and less if a tag goes. -/
lemma bodyLength_stripQualifiers (cs : List Char) :
    (NoTag (stripQualifiers cs)
        ∧ bodyLength (stripQualifiers cs) ≤ bodyLength cs)
      ∨ bodyLength (stripQualifiers cs) < bodyLength cs := by
  have hle := bodyLength_blankOutWords_le strippedWords cs
  rcases bodyLength_dropTag (squeeze (blankOutWords strippedWords cs)) with
    ⟨hno, heq⟩ | hlt
  · rw [stripQualifiers, heq, bodyLength_squeeze]
    exact .inl ⟨hno, hle⟩
  · rw [bodyLength_squeeze] at hlt
    exact .inr (by rw [stripQualifiers]; omega)

lemma mem_stars {c : Char} {depth : Nat}
    (hc : c ∈ List.replicate depth '*') : c = '*' :=
  (List.mem_replicate.mp hc).2

/-- The stars of a pointer from its end, with the space before them. -/
lemma exists_reverse_pointerTo (cs : List Char) (depth : Nat) :
    ∃ marks, (pointerTo cs depth).reverse = marks ++ cs.reverse
      ∧ (∀ c ∈ marks, isPointerMark c = true)
      ∧ marks.count '*' = depth
      ∧ ∀ c ∈ marks.head?, c = '*' := by
  rw [pointerTo]
  split
  · rename_i hdepth
    exact ⟨[], by simp, fun _ hc => (nomatch hc), hdepth.symm,
      fun _ hc => nomatch hc⟩
  · rename_i hdepth
    refine ⟨List.replicate depth '*' ++ [' '], by simp, ?_, by simp, ?_⟩
    · intro c hc
      rcases List.mem_append.mp hc with hc | hc
      · rw [mem_stars hc]
        decide
      · rw [List.mem_singleton.mp hc]
        decide
    · intro c hc
      obtain ⟨n, rfl⟩ := Nat.exists_eq_succ_of_ne_zero hdepth
      exact (Option.some.inj hc).symm

/-- The stars of a pointer, and the space in front of them. -/
lemma pointerTo_marks (base : List Char) (depth : Nat) :
    ∃ marks, pointerTo base depth = base ++ marks
      ∧ ∀ c ∈ marks, isPointerMark c = true := by
  refine ⟨_, rfl, fun c hc => ?_⟩
  split at hc
  · cases hc
  · rcases List.mem_cons.mp hc with rfl | hc
    · decide
    · rw [mem_stars hc]
      decide

lemma bodyLength_pointerTo (base : List Char) (depth : Nat) :
    bodyLength (pointerTo base depth) = bodyLength base := by
  obtain ⟨marks, heq, hmarks, -⟩ := exists_reverse_pointerTo base depth
  have hrev : pointerTo base depth = base ++ marks.reverse := by
    rw [← List.reverse_reverse (pointerTo base depth), heq,
      List.reverse_append, List.reverse_reverse]
  rw [hrev, bodyLength_append, bodyLength_eq_zero fun c hc =>
    hmarks c (List.mem_reverse.mp hc), Nat.add_zero]

lemma bodyLength_trim (cs : List Char) :
    bodyLength (trim cs) = bodyLength cs := by
  obtain ⟨front, back, heq, hfront, hback⟩ := exists_trim cs
  conv_rhs => rw [heq]
  rw [bodyLength_append, bodyLength_append,
    bodyLength_eq_zero fun c hc => isPointerMark_of_isBlank (hfront c hc),
    bodyLength_eq_zero fun c hc => isPointerMark_of_isBlank (hback c hc),
    Nat.zero_add, Nat.add_zero]

lemma bodyLength_splitPointers (cs : List Char) :
    bodyLength (splitPointers cs).1 = bodyLength cs := by
  obtain ⟨marks, heq, hmarks⟩ :=
    exists_dropEnd_append isPointerMark (trim cs)
  have hsum := congrArg bodyLength heq
  rw [bodyLength_append, bodyLength_eq_zero hmarks, Nat.add_zero,
    bodyLength_trim] at hsum
  exact hsum.symm

/-- The pieces between commas have no more than the text. -/
lemma bodyLength_topLevelParts_le {openers closers cs p : List Char}
    (hp : p ∈ topLevelParts openers closers cs) :
    bodyLength p ≤ bodyLength cs := by
  obtain ⟨q, hq, rfl⟩ := exists_of_mem_topLevelParts hp
  rw [bodyLength_trim, ← intercalate_splitAtDepth openers closers 0 cs]
  generalize splitAtDepth openers closers 0 cs = qs at hq
  induction qs with
  | nil => cases hq
  | cons r qs ih =>
      cases qs with
      | nil =>
          obtain rfl := List.mem_singleton.mp hq
          rw [List.intercalate_singleton]
      | cons r' qs =>
          rw [List.intercalate_cons_cons, bodyLength_append,
            bodyLength_append]
          rcases List.mem_cons.mp hq with rfl | hq
          · omega
          · have := ih hq
            omega

/-- The name and the arguments of a generic type have less than the type,
unless it is not closed and all of it is taken for the name. -/
lemma bodyLength_splitGeneric_lt {base : List Char} (h : '<' ∈ base) :
    (∀ arg ∈ (splitGeneric base).2, bodyLength arg < bodyLength base)
      ∧ ((splitGeneric base).1 = base
        ∨ bodyLength (splitGeneric base).1 < bodyLength base) := by
  obtain ⟨rest, hrest, heq⟩ := (cut_at '<' base).resolve_left
    fun hnone => absurd (List.takeWhile_eq_self_iff.mp hnone.1 '<' h) (by simp)
  have hbase : bodyLength base
      = bodyLength (base.takeWhile (· ≠ '<')) + (bodyLength rest + 1) := by
    conv_lhs => rw [heq]
    rw [bodyLength_append]
    exact congrArg _ (List.countP_cons_of_pos (by decide))
  rw [splitGeneric, hrest, List.tail_cons]
  split
  · refine ⟨fun arg harg => ?_, .inr ?_⟩
    · have hinner := bodyLength_topLevelParts_le harg
      have hle : bodyLength
          ((rest.reverse.dropWhile (· ≠ '>')).tail.reverse)
            ≤ bodyLength rest := by
        refine List.Sublist.countP_le ?_
        rw [← List.reverse_sublist, List.reverse_reverse]
        exact (List.tail_sublist _).trans (List.dropWhile_sublist _)
      omega
    · rw [bodyLength_trim]
      omega
  · exact ⟨by simp, .inl rfl⟩

/-! ### Bases -/

/-- The number of stars of a type. -/
def starsOf (cs : List Char) : Nat :=
  (splitPointers (stripQualifiers cs)).2

/-- A text as the name of a type is left. -/
structure IsBase (base : List Char) : Prop where
  tidy : Tidy base
  last : ∀ c ∈ base.getLast?, isPointerMark c = false
  words : ∀ w ∈ wordsIn base, w ∉ strippedWords

/-- A tidy text is its name with some marks behind it. -/
lemma exists_splitPointers {cs : List Char} (h : Tidy cs) :
    ∃ marks, cs = (splitPointers cs).1 ++ marks
      ∧ (∀ c ∈ marks, isPointerMark c = true)
      ∧ ∀ c ∈ (splitPointers cs).1.getLast?, isPointerMark c = false := by
  obtain ⟨marks, heq, hmarks⟩ := exists_dropEnd_append isPointerMark cs
  rw [splitPointers, trim_of_tidy h]
  refine ⟨marks, heq, hmarks, fun c hc => ?_⟩
  rw [List.getLast?_reverse] at hc
  have := List.head?_dropWhile_not isPointerMark cs.reverse
  rw [hc] at this
  simpa using this

theorem isBase_baseOf (cs : List Char) : IsBase (baseOf cs) := by
  have htidy := tidy_stripQualifiers cs
  obtain ⟨marks, heq, -, hlast⟩ := exists_splitPointers htidy
  refine ⟨?_, hlast, fun w hw => (wordsIn_baseOf hw).2⟩
  rw [heq] at htidy
  exact htidy.of_append fun c hc => by
    have := hlast c hc
    exact (Bool.or_eq_false_iff.mp this).2

section Base

variable {base : List Char}

lemma IsBase.not_blank_last (h : IsBase base) :
    ∀ c ∈ base.getLast?, isBlank c = false :=
  fun c hc => (Bool.or_eq_false_iff.mp (h.last c hc)).2

/-- A pointer is as tidy as its name. -/
lemma IsBase.tidy_pointerTo (h : IsBase base) (hne : base ≠ [])
    (depth : Nat) : Tidy (pointerTo base depth) := by
  rw [pointerTo]
  split
  · rw [List.append_nil]
    exact h.tidy
  rename_i hdepth
  obtain ⟨n, rfl⟩ := Nat.exists_eq_add_one_of_ne_zero hdepth
  have hstars : ∀ c ∈ List.replicate (n + 1) '*', isBlank c = false := by
    intro c hc
    rw [mem_stars hc]
    decide
  refine ⟨fun c hc hblank => ?_, List.IsChain.append h.tidy.apart ?_ ?_,
    fun c hc => ?_, fun c hc => ?_⟩
  · rcases List.mem_append.mp hc with hc | hc
    · exact h.tidy.spaces c hc hblank
    · rcases List.mem_cons.mp hc with rfl | hc
      · rfl
      · rw [hstars c hc] at hblank
        cases hblank
  · refine List.Pairwise.isChain (List.pairwise_cons.mpr
      ⟨fun c hc => .inr (hstars c hc), ?_⟩)
    exact List.pairwise_of_forall_mem_list fun c hc _ _ => .inl (hstars c hc)
  · intro c hc d hd
    exact .inl (h.not_blank_last c hc)
  · obtain ⟨b, bs, rfl⟩ := List.exists_cons_of_ne_nil hne
    exact h.tidy.head c hc
  · refine hstars c ?_
    rw [List.getLast?_append, List.replicate_succ,
      List.getLast?_cons_cons] at hc
    exact List.mem_of_mem_getLast? (by
      rw [List.replicate_succ]
      cases hl : ('*' :: List.replicate n '*').getLast? with
      | none => simp at hl
      | some d => rw [hl] at hc; exact hc)

/-- Nothing but a tag is left out of a pointer. -/
lemma stripQualifiers_eq_dropTag (h : IsBase base) (hne : base ≠ [])
    (depth : Nat) :
    stripQualifiers (pointerTo base depth)
      = dropTag (pointerTo base depth) := by
  have hwords : ∀ w ∈ wordsIn (pointerTo base depth),
      w ∉ strippedWords := by
    rw [wordsIn_pointerTo]
    exact h.words
  rw [stripQualifiers, blankOutWords_eq strippedWords_isWord hwords,
    squeeze_of_tidy (h.tidy_pointerTo hne depth)]

/-- Without a tag the text of a pointer stays as it is. -/
theorem stripQualifiers_pointerTo (h : IsBase base) (hne : base ≠ [])
    {depth : Nat} (hno : NoTag (pointerTo base depth)) :
    stripQualifiers (pointerTo base depth) = pointerTo base depth := by
  rw [stripQualifiers_eq_dropTag h hne, dropTag_of_noTag hno]

/-- A pointer is taken apart into its name and its stars. -/
theorem splitPointers_pointerTo (h : IsBase base) (hne : base ≠ [])
    (depth : Nat) : splitPointers (pointerTo base depth) = (base, depth) := by
  obtain ⟨marks, hmarks, hall, hcount, -⟩ :=
    exists_reverse_pointerTo base depth
  obtain ⟨c, cs, hbase⟩ : ∃ c cs, base.reverse = c :: cs :=
    List.exists_cons_of_ne_nil (by simpa using hne)
  have hc : ¬ isPointerMark c = true := by
    rw [h.last c (by rw [← List.head?_reverse, hbase]; rfl)]
    decide
  rw [splitPointers, trim_of_tidy (h.tidy_pointerTo hne depth)]
  simp only [hmarks, List.dropWhile_append_of_pos hall,
    List.takeWhile_append_of_pos hall, hbase,
    List.dropWhile_cons_of_neg hc, List.takeWhile_cons_of_neg hc,
    List.append_nil, hcount]
  rw [← hbase, List.reverse_reverse]

/-- Without a tag a pointer has its name and its stars. -/
lemma baseOf_pointerTo (h : IsBase base) (hne : base ≠ []) {depth : Nat}
    (hno : NoTag (pointerTo base depth)) :
    baseOf (pointerTo base depth) = base
      ∧ starsOf (pointerTo base depth) = depth := by
  rw [baseOf, starsOf, stripQualifiers_pointerTo h hne hno,
    splitPointers_pointerTo h hne]
  exact ⟨rfl, rfl⟩

/-- A tag that is dropped leaves no more stars. -/
lemma splitPointers_dropTag_le {cs : List Char} (h : Tidy cs) :
    (splitPointers (dropTag cs)).2 ≤ (splitPointers cs).2 := by
  rcases dropTag_cases cs with ⟨-, heq⟩ | ⟨tag, -, heq⟩
  · rw [heq]
  · rw [splitPointers, splitPointers, trim_of_tidy h,
      trim_of_tidy h.dropTag]
    have hrev : cs.reverse = (dropTag cs).reverse ++ tag.reverse := by
      rw [← List.reverse_append, ← heq]
    rw [hrev, List.takeWhile_append]
    split
    · exact ((List.takeWhile_sublist _).trans
        (List.sublist_append_left _ _)).count_le _
    · exact Nat.le_refl _

/-- A pointer to a name has no more than its star. -/
lemma starsOf_pointerTo_one (h : IsBase base) :
    starsOf (pointerTo base 1) ≤ 1 := by
  rcases eq_or_ne base [] with rfl | hne
  · decide +kernel
  · have hle := splitPointers_dropTag_le (h.tidy_pointerTo hne 1)
    rwa [splitPointers_pointerTo h hne,
      ← stripQualifiers_eq_dropTag h hne] at hle

/-- The name of a type is no longer than the type, and shorter if a tag
goes. -/
lemma bodyLength_baseOf (cs : List Char) :
    (NoTag (stripQualifiers cs) ∧ bodyLength (baseOf cs) ≤ bodyLength cs)
      ∨ bodyLength (baseOf cs) < bodyLength cs := by
  rw [baseOf, bodyLength_splitPointers]
  exact bodyLength_stripQualifiers cs

/-- Where no tag was dropped there is none in front of the name either,
if that is more than a tag. -/
lemma noTag_pointerTo_baseOf {cs : List Char}
    (hno : NoTag (stripQualifiers cs)) (hangle : '<' ∈ baseOf cs)
    (depth : Nat) : NoTag (pointerTo (baseOf cs) depth) := by
  intro tag htag hpre
  have hbase : baseOf cs <+: pointerTo (baseOf cs) depth :=
    List.prefix_append _ _
  obtain ⟨marks, heq, -⟩ := exists_splitPointers (tidy_stripQualifiers cs)
  rcases List.prefix_or_prefix_of_prefix hpre hbase with hle | hle
  · exact hno tag htag (hle.trans ⟨marks, heq.symm⟩)
  · have hall : ∀ tag ∈ tagPrefixes, '<' ∉ tag := by decide
    exact hall tag htag (hle.subset hangle)

/-- A name is not made of stars. -/
lemma IsBase.eq_nil {base : List Char} (h : IsBase base)
    (hbody : bodyLength base = 0) : base = [] := by
  by_contra hne
  have hlast := h.last _ (List.getLast?_eq_some_getLast hne)
  have hmark := List.countP_eq_zero.mp hbody _ (List.getLast_mem hne)
  rw [hlast] at hmark
  exact hmark rfl

/-- A type of stars has no name. -/
lemma baseOf_eq_nil {cs : List Char} (h : bodyLength (stripQualifiers cs) = 0) :
    baseOf cs = [] :=
  (isBase_baseOf cs).eq_nil (by rw [baseOf, bodyLength_splitPointers, h])

end Base

/-! ### Parentheses -/

lemma opensBefore_eq_false {next : List Char → Bool} {cs : List Char}
    (h : '(' ∉ cs) : opensBefore next cs = false := by
  induction cs with
  | nil => rfl
  | cons c cs ih =>
      obtain ⟨hc, hcs⟩ := not_or.mp (mt List.mem_cons.mpr h)
      rw [opensBefore, ih hcs, Bool.or_false, decide_eq_false (Ne.symm hc),
        Bool.false_and]

/-- What is in front of all parentheses does not count. -/
lemma opensBefore_append {next : List Char → Bool} {as : List Char}
    (h : '(' ∉ as) (cs : List Char) :
    opensBefore next (as ++ cs) = opensBefore next cs := by
  induction as with
  | nil => rfl
  | cons a as ih =>
      obtain ⟨ha, has⟩ := not_or.mp (mt List.mem_cons.mpr h)
      rw [List.cons_append, opensBefore, ih has,
        decide_eq_false (Ne.symm ha), Bool.false_and, Bool.false_or]

/-- Nor does what is behind them, if it does not change what follows one. -/
lemma opensBefore_append_of_next {next : List Char → Bool}
    {bs : List Char} (h : '(' ∉ bs)
    (hnext : ∀ as, next ((as ++ bs).dropWhile isBlank)
      = next (as.dropWhile isBlank)) (cs : List Char) :
    opensBefore next (cs ++ bs) = opensBefore next cs := by
  induction cs with
  | nil => exact opensBefore_eq_false h
  | cons c cs ih => rw [List.cons_append, opensBefore, opensBefore, hnext, ih]

section Behind

variable {bs : List Char}

lemma head?_dropWhile_append {c : Char}
    (hc : (bs.dropWhile isBlank).head? ≠ some c) (as : List Char) :
    ((as ++ bs).dropWhile isBlank).head? = some c
      ↔ (as.dropWhile isBlank).head? = some c := by
  rw [List.dropWhile_append]
  cases as.dropWhile isBlank with
  | nil => simpa using hc
  | cons a as => exact Iff.rfl

variable (hparen : '(' ∉ bs)
include hparen

/-- A text is no block because of what stands behind it, if that does not
start with a caret. -/
lemma isBlockText_append (hcaret : (bs.dropWhile isBlank).head? ≠ some '^')
    (cs : List Char) : isBlockText (cs ++ bs) = isBlockText cs :=
  opensBefore_append_of_next hparen (fun as => decide_eq_decide.mpr
    (head?_dropWhile_append hcaret as)) cs

/-- Nor is it a pointer to a function, if that does not start with a
closing parenthesis, alone or behind a star. -/
lemma isFunctionPointerText_append
    (hclose : (bs.dropWhile isBlank).head? ≠ some ')')
    (hstar : ((bs.dropWhile isBlank).tail.dropWhile isBlank).head?
      ≠ some ')') (cs : List Char) :
    isFunctionPointerText (cs ++ bs) = isFunctionPointerText cs := by
  refine opensBefore_append_of_next hparen (fun as => ?_) cs
  rw [List.dropWhile_append]
  cases as.dropWhile isBlank with
  | nil => simpa using fun _ => hstar
  | cons a as =>
      have hbehind := head?_dropWhile_append hclose as
      exact congrArg (decide (some a = some '*') && ·)
        (decide_eq_decide.mpr hbehind)

end Behind

end HeaderBinding
