/-
Qualifiers in a type, and what it is mapped to.

* `leadsConst_iff`: a type starts with `const` and something behind it;
* `mapStep_eq_strippedStep`: a step looks at the type without qualifiers,
  and whether it starts so;
* `ConstTells`: that decides what the type is mapped to, as it is a pointer
  to a character, by its name or by aliases that do not say `const`;
* `ConstTells.endsAfter`, `ConstPair.mapWithin_eq`: with and without the
  leading `const` the map ends in two types there, and agrees elsewhere;
* `mapType_qualifier`: a qualifier at the end of a type changes nothing,
  and one at its start only hides a `const` that tells.
-/
import HeaderBinding.Proofs.Mapping.Names
import HeaderBinding.Proofs.Mapping.Steps

namespace HeaderBinding

/-! ### A leading `const` -/

/-- The type starts with `const` and something behind it. -/
def leadsConst (cs : List Char) : Bool :=
  "const ".toList.isPrefixOf (trim cs)

lemma trim_append {as bs : List Char}
    (hhead : ∀ c ∈ as.head?, isBlank c = false) (hne : as ≠ [])
    (hbs : allBlank bs = false) : trim (as ++ bs) = as ++ trimRight bs := by
  obtain ⟨a, as, rfl⟩ := List.exists_cons_of_ne_nil hne
  have hleft : trimLeft (a :: as ++ bs) = a :: as ++ bs :=
    List.dropWhile_cons_of_neg (by simp [hhead a rfl])
  have hsome : bs.reverse.dropWhile isBlank ≠ [] := by
    intro hnil
    rw [List.dropWhile_eq_nil_iff] at hnil
    rw [allBlank, Bool.eq_false_iff, ne_eq, List.all_eq_true] at hbs
    exact hbs fun c hc => hnil c (List.mem_reverse.mpr hc)
  rw [trim, hleft, trimRight, List.reverse_append, List.dropWhile_append,
    if_neg (by simpa using hsome), List.reverse_append,
    List.reverse_reverse, trimRight]

lemma trim_blanks_append {gap : List Char}
    (hgap : ∀ c ∈ gap, isBlank c = true) (cs : List Char) :
    trim (gap ++ cs) = trim cs := by
  rw [trim, trimLeft, List.dropWhile_append_of_pos hgap, trim, trimLeft]

lemma trim_last (cs : List Char) :
    ∀ c ∈ (trim cs).getLast?, isBlank c = false := by
  intro c hc
  have := List.head?_dropWhile_not isBlank (trimLeft cs).reverse
  rw [trim, trimRight, List.getLast?_reverse] at hc
  rw [hc] at this
  simpa using this

lemma allBlank_eq_true {cs : List Char} :
    allBlank cs = true ↔ ∀ c ∈ cs, isBlank c = true :=
  List.all_eq_true

/-- Behind the blanks at its start there is `const`, a space and something
that is not blank. -/
theorem leadsConst_iff (cs : List Char) :
    leadsConst cs = true ↔ ∃ gap rest, cs = gap ++ ("const ".toList ++ rest)
      ∧ (∀ c ∈ gap, isBlank c = true) ∧ allBlank rest = false := by
  rw [leadsConst, List.isPrefixOf_iff_prefix]
  constructor
  · rintro ⟨rest, hrest⟩
    obtain ⟨front, back, heq, hfront, hback⟩ := exists_trim cs
    refine ⟨front, rest ++ back, ?_, hfront, ?_⟩
    · rw [← List.append_assoc "const ".toList, hrest,
        ← List.append_assoc]
      exact heq
    · -- what is trimmed does not end in the space
      rw [Bool.eq_false_iff, ne_eq, allBlank_eq_true]
      intro hall
      obtain ⟨hr, -⟩ := List.forall_mem_append.mp hall
      have hlast := trim_last cs
      rw [← hrest] at hlast
      rcases eq_or_ne rest [] with rfl | hne
      · exact absurd (hlast ' ' rfl) (by decide)
      · have hin := List.getLast_mem hne
        have := hlast _ (by
          rw [List.getLast?_append_of_ne_nil _ hne,
            List.getLast?_eq_some_getLast hne]
          rfl)
        rw [hr _ hin] at this
        cases this
  · rintro ⟨gap, rest, rfl, hgap, hrest⟩
    have hhead : ∀ c ∈ "const ".toList.head?, isBlank c = false := by
      rintro c ⟨⟩
      decide
    rw [trim_blanks_append hgap, trim_append hhead (by decide) hrest]
    exact List.prefix_append _ _

lemma eq_const_of_mem_wordsIn {gap w : List Char}
    (hgap : ∀ c ∈ gap, isBlank c = true)
    (hw : w ∈ wordsIn (gap ++ "const ".toList)) : w = "const".toList := by
  rw [wordsIn_gap_append fun c hc => isWordChar_of_isBlank (hgap c hc)] at hw
  have hwords : wordsIn "const ".toList = ["const".toList] := by decide
  rw [hwords] at hw
  exact List.mem_singleton.mp hw

/-- A word behind a type that says more than `const` does not count. -/
lemma leadsConst_append_word {cs : List Char}
    (hcs : ∃ w ∈ wordsIn cs, w ∉ strippedWords) (word : List Char) :
    leadsConst (cs ++ ' ' :: word) = leadsConst cs := by
  obtain ⟨w, hw, hleft⟩ := hcs
  have hconst : ∀ {gap : List Char}, (∀ c ∈ gap, isBlank c = true) →
      w ∉ wordsIn (gap ++ "const ".toList) := by
    intro gap hgap hin
    exact hleft (eq_const_of_mem_wordsIn hgap hin ▸ by decide)
  rw [Bool.eq_iff_iff, leadsConst_iff, leadsConst_iff]
  constructor
  · rintro ⟨gap, rest, heq, hgap, hrest⟩
    rw [← List.append_assoc] at heq
    rcases List.append_eq_append_iff.mp heq with
      ⟨mid, hmid, htail⟩ | ⟨mid, hcs, htail⟩
    · -- the type ends within the `const` that was found
      refine absurd ?_ (hconst hgap)
      rw [hmid]
      cases mid with
      | nil => rwa [List.append_nil]
      | cons c mid =>
          obtain rfl : ' ' = c := (List.cons.inj htail).1
          exact wordsIn_before_subset cs (by decide) mid hw
    · refine ⟨gap, mid, by rw [hcs, List.append_assoc], hgap, ?_⟩
      rw [Bool.eq_false_iff, ne_eq, allBlank_eq_true]
      intro hall
      refine hconst hgap ?_
      rwa [hcs, wordsIn_append_gap _ fun c hc =>
        isWordChar_of_isBlank (hall c hc)] at hw
  · rintro ⟨gap, rest, rfl, hgap, hrest⟩
    refine ⟨gap, rest ++ ' ' :: word, by simp, hgap, ?_⟩
    rw [allBlank, List.all_append, Bool.and_eq_false_iff]
    exact .inl hrest

/-- Behind another word `const` does not lead. -/
lemma leadsConst_word_append {word : List Char} (hw : IsWord word)
    (hne : word ≠ []) (hconst : word ≠ "const".toList) (cs : List Char) :
    leadsConst (word ++ ' ' :: cs) = false := by
  have hblank : ∀ c ∈ word, isBlank c = false := by
    intro c hc
    rw [Bool.eq_false_iff]
    intro hb
    have := hw c hc
    rw [isWordChar_of_isBlank hb] at this
    cases this
  have hspace : ∀ {v : List Char}, (∀ c ∈ v, isBlank c = false) →
      ' ' ∉ v := by
    intro v hv hin
    exact absurd (hv ' ' hin) (by decide)
  rw [Bool.eq_false_iff, ne_eq, leadsConst_iff]
  rintro ⟨gap, rest, heq, hgap, -⟩
  cases gap with
  | nil =>
      have hcut := congrArg (List.takeWhile (· ≠ ' ')) heq
      rw [takeWhile_ne_append (hspace hblank)] at hcut
      have hword : ("const".toList ++ ' ' :: rest).takeWhile (· ≠ ' ')
          = "const".toList := takeWhile_ne_append (by decide) rest
      exact hconst (hcut.trans hword)
  | cons g gap =>
      obtain ⟨c, word, rfl⟩ := List.exists_cons_of_ne_nil hne
      obtain rfl : c = g := (List.cons.inj heq).1
      have := hblank c List.mem_cons_self
      rw [hgap c List.mem_cons_self] at this
      cases this

/-- A type without that word does not lead with it. -/
lemma leadsConst_eq_false {cs : List Char}
    (h : "const".toList ∉ wordsIn cs) : leadsConst cs = false := by
  rw [Bool.eq_false_iff, ne_eq, leadsConst_iff]
  rintro ⟨gap, rest, rfl, hgap, -⟩
  refine h ?_
  rw [wordsIn_gap_append fun c hc => isWordChar_of_isBlank (hgap c hc)]
  have := wordsIn_append_cons "const".toList (c := ' ') (by decide) rest
  exact this ▸ List.mem_append_left _ (by decide)

/-! ### Steps on types without qualifiers -/

variable {ctx : TypeContext} {self? : Option String}

/-- The step from a type without qualifiers. -/
def strippedStep (ctx : TypeContext) (self? : Option String)
    (hadConst : Bool) (text : List Char) : MapStep :=
  if isBlockText text then .done "Action"
  else if isFunctionPointerText text then .done "IntPtr"
  else mapPointer ctx self? hadConst (splitPointers text).1
    (splitPointers text).2

/-- A type with a word is mapped by what is left of it, and whether it
leads with `const`. -/
theorem mapStep_eq_strippedStep {cs : List Char} (h : wordsIn cs ≠ []) :
    mapStep ctx self? cs
      = strippedStep ctx self? (leadsConst cs) (stripQualifiers cs) := by
  have hblank : allBlank cs = false := by
    rw [Bool.eq_false_iff, ne_eq, allBlank_eq_true]
    intro hall
    have hgap : IsGap cs := fun c hc => isWordChar_of_isBlank (hall c hc)
    exact h (wordsIn_append_gap [] hgap)
  have hdots : trim cs ≠ "...".toList := by
    intro heq
    have hwords : wordsIn (trim cs) = [] := by
      rw [heq]
      decide
    exact h ((wordsIn_trim cs).symm.trans hwords)
  rw [mapStep, if_neg (by simp [hblank]), if_neg hdots]
  rfl

/-- The type is a name, with a star or without, that stands for no
callable. -/
structure IsNamed (ctx : TypeContext) (cs : List Char) : Prop where
  noBlock : isBlockText (stripQualifiers cs) = false
  noFunction : isFunctionPointerText (stripQualifiers cs) = false
  stars : starsOf cs < 2
  block : String.ofList (baseOf cs) ∉ ctx.blocks
  function : String.ofList (baseOf cs) ∉ ctx.functionPointers

/-- The text that the name of a type stands for. -/
def aliasText (ctx : TypeContext) (cs : List Char) : String :=
  ctx.resolveText (String.ofList (baseOf cs))

/-- The name of a type is an alias that does not stand for itself. -/
def IsProperAlias (ctx : TypeContext) (cs : List Char) : Prop :=
  ctx.isAlias (String.ofList (baseOf cs)) = true
    ∧ baseOf (aliasText ctx cs).toList ≠ baseOf cs

section Named

variable {cs : List Char} (h : IsNamed ctx cs)
include h

lemma strippedStep_of_isNamed (hadConst : Bool) :
    strippedStep ctx self? hadConst (stripQualifiers cs)
      = match mapAlias? ctx hadConst (baseOf cs) (starsOf cs) with
        | some step => step
        | none => mapNamed ctx self? hadConst (baseOf cs) (starsOf cs) := by
  rw [strippedStep, if_neg (by simp [h.noBlock]),
    if_neg (by simp [h.noFunction])]
  exact mapPointer_of_not_callable h.stars h.block h.function

/-- A type that is called by an alias takes the step of its text. -/
lemma strippedStep_of_alias (halias : IsProperAlias ctx cs)
    (hadConst : Bool) :
    strippedStep ctx self? hadConst (stripQualifiers cs)
      = targetStep hadConst (aliasText ctx cs) (starsOf cs) := by
  rw [strippedStep_of_isNamed h, mapAlias?_of_ne halias.1 halias.2,
    aliasText]

/-- Any other takes the step of its name. -/
lemma strippedStep_of_not_alias (halias : ¬ IsProperAlias ctx cs)
    (hadConst : Bool) :
    strippedStep ctx self? hadConst (stripQualifiers cs)
      = mapNamed ctx self? hadConst (baseOf cs) (starsOf cs) := by
  rw [strippedStep_of_isNamed h, mapAlias?_eq_none fun hin =>
    by_contra fun hne => halias ⟨hin, hne⟩]

end Named

/-- For all other types a leading `const` makes no difference. -/
lemma strippedStep_congr {cs : List Char} (h : ¬ IsNamed ctx cs) :
    strippedStep ctx self? true (stripQualifiers cs)
      = strippedStep ctx self? false (stripQualifiers cs) := by
  unfold strippedStep mapPointer
  simp only
  split
  · rfl
  split
  · rfl
  split
  · rfl
  split
  · rfl
  split
  · rfl
  rename_i hnoBlock hnoFunction hstars hblock hfunction
  rw [List.contains_iff_mem] at hblock hfunction
  exact absurd ⟨Bool.eq_false_iff.mpr hnoBlock,
    Bool.eq_false_iff.mpr hnoFunction, Nat.not_le.mp hstars, hblock,
    hfunction⟩ h

/-! ### Where `const` tells -/

/-- A leading `const` decides what the type is mapped to: the type is a
pointer to a character, or called by an alias that says no `const` and
leads to such a type. -/
inductive ConstTells (ctx : TypeContext) : List Char → Prop
  | char {cs : List Char} (hnamed : IsNamed ctx cs)
      (hself : ¬ IsProperAlias ctx cs) (hbase : baseOf cs = "char".toList)
      (hstars : starsOf cs = 1) : ConstTells ctx cs
  | viaAlias {cs : List Char} (hnamed : IsNamed ctx cs)
      (halias : IsProperAlias ctx cs)
      (hcallable : isBlockText (aliasText ctx cs).toList = false)
      (hconst : isConstQualified
        ((aliasText ctx cs).toList.takeWhile (· ≠ '*')) = false)
      (hnext : ConstTells ctx (pointerTo (baseOf (aliasText ctx cs).toList)
        (starsOf cs + starsOf (aliasText ctx cs).toList))) :
      ConstTells ctx cs

/-- Every alias stands for something with a name. -/
def TypeContext.TargetsNamed (ctx : TypeContext) : Prop :=
  ∀ entry ∈ ctx.aliases, wordsIn (baseOf entry.2.toList) ≠ []

/-- Two types that differ by a leading `const`, qualifiers apart. -/
structure ConstPair (as bs : List Char) : Prop where
  stripped : stripQualifiers as = stripQualifiers bs
  words : wordsIn as ≠ []
  words' : wordsIn bs ≠ []
  leads : leadsConst as = true
  bare : leadsConst bs = false

lemma wordsIn_append_space_ne_nil {as bs : List Char}
    (h : wordsIn as ≠ [] ∨ wordsIn bs ≠ []) :
    wordsIn (as ++ ' ' :: bs) ≠ [] := by
  rw [wordsIn_append_cons _ (by decide), ne_eq, List.append_eq_nil_iff]
  exact not_and_or.mpr h

/-- The name and the stars of a type with and without `const`. -/
lemma constPair_pointerTo {cs : List Char} (h : wordsIn (baseOf cs) ≠ [])
    (depth : Nat) :
    ConstPair ("const ".toList ++ pointerTo (baseOf cs) depth)
      (pointerTo (baseOf cs) depth) := by
  have hsplit : "const ".toList ++ pointerTo (baseOf cs) depth
      = "const".toList ++ ' ' :: pointerTo (baseOf cs) depth := rfl
  have hwords : wordsIn (pointerTo (baseOf cs) depth) ≠ [] := by
    rwa [wordsIn_pointerTo]
  refine ⟨?_, ?_, hwords, ?_, ?_⟩
  · rw [hsplit]
    exact stripQualifiers_word_append (by decide) _
  · rw [hsplit]
    exact wordsIn_append_space_ne_nil (.inr hwords)
  · refine (leadsConst_iff _).mpr ⟨[], _, rfl, by simp, ?_⟩
    rw [Bool.eq_false_iff, ne_eq, allBlank_eq_true]
    intro hall
    exact hwords (wordsIn_append_gap [] fun c hc =>
      isWordChar_of_isBlank (hall c hc))
  · refine leadsConst_eq_false fun hin => ?_
    rw [wordsIn_pointerTo] at hin
    exact (wordsIn_baseOf hin).2 (by decide)

lemma ConstPair.mapStep_eq {as bs : List Char} (h : ConstPair as bs) :
    mapStep ctx self? as
        = strippedStep ctx self? true (stripQualifiers bs)
      ∧ mapStep ctx self? bs
        = strippedStep ctx self? false (stripQualifiers bs) := by
  rw [mapStep_eq_strippedStep h.words, mapStep_eq_strippedStep h.words',
    h.leads, h.bare, h.stripped]
  exact ⟨rfl, rfl⟩

lemma mapNamed_char (hadConst : Bool) :
    mapNamed ctx self? hadConst "char".toList 1
      = .done (if hadConst then "string" else unsafePointer "sbyte") := by
  simp [mapNamed]

/-- Only for a pointer to a character it matters that `const` stood
before. -/
lemma mapNamed_congr {base : List Char} {depth : Nat}
    (h : ¬ (base = "char".toList ∧ 0 < depth)) :
    mapNamed ctx self? true base depth
      = mapNamed ctx self? false base depth := by
  have hchar : ¬ (String.ofList base = "char" ∧ 0 < depth) := by
    rintro ⟨heq, hdepth⟩
    refine h ⟨?_, hdepth⟩
    rw [← heq, String.toList_ofList]
  simp only [mapNamed, hchar, if_false]

section Pairs

variable (htargets : ctx.TargetsNamed)
include htargets

lemma words_aliasText {cs : List Char} (h : IsProperAlias ctx cs) :
    wordsIn (baseOf (aliasText ctx cs).toList) ≠ [] := by
  obtain ⟨entry, hentry, htext⟩ := exists_resolveText h.1
  rw [aliasText, htext]
  exact htargets entry hentry

/-- Where `const` tells, the map ends in a string with it and in a pointer
to bytes without it. -/
theorem ConstTells.endsAfter {cs : List Char} (h : ConstTells ctx cs)
    {as bs : List Char} (hpair : ConstPair as bs)
    (hcs : stripQualifiers bs = stripQualifiers cs) :
    (∃ n, EndsAfter ctx self? n as "string")
      ∧ ∃ n, EndsAfter ctx self? n bs (unsafePointer "sbyte") := by
  induction h generalizing as bs with
  | @char cs hnamed hself hbase hstars =>
      have hstep : ∀ hadConst, strippedStep ctx self? hadConst
          (stripQualifiers cs)
            = .done (if hadConst then "string" else unsafePointer "sbyte") := by
        intro hadConst
        rw [strippedStep_of_not_alias hnamed hself, hbase, hstars,
          mapNamed_char]
      refine ⟨⟨1, .done ?_⟩, ⟨1, .done ?_⟩⟩
      · rw [hpair.mapStep_eq.1, hcs, hstep, if_pos rfl]
      · rw [hpair.mapStep_eq.2, hcs, hstep, if_neg Bool.false_ne_true]
  | @viaAlias cs hnamed halias hcallable hconst _ ih =>
      have hnext := constPair_pointerTo (words_aliasText htargets halias)
        (starsOf cs + starsOf (aliasText ctx cs).toList)
      obtain ⟨⟨m, hm⟩, n, hn⟩ := ih hnext rfl
      have hstep : ∀ hadConst, strippedStep ctx self? hadConst
          (stripQualifiers cs) = .again ""
            ((if hadConst then "const ".toList else [])
              ++ pointerTo (baseOf (aliasText ctx cs).toList)
                (starsOf cs + starsOf (aliasText ctx cs).toList)) "" := by
        intro hadConst
        rw [strippedStep_of_alias hnamed halias, targetStep,
          if_neg (by simp [hcallable]), hconst, Bool.false_or]
      refine ⟨⟨m + 1, .again_bare ?_ hm⟩, ⟨n + 1, .again_bare ?_ hn⟩⟩
      · rw [hpair.mapStep_eq.1, hcs, hstep, if_pos rfl]
      · rw [hpair.mapStep_eq.2, hcs, hstep, if_neg Bool.false_ne_true,
          List.nil_append]

/-- Where it does not tell, the step is the same, or it goes on with and
without `const` to a type in which it does not tell either. -/
lemma strippedStep_cases {cs : List Char} (h : ¬ ConstTells ctx cs) :
    strippedStep ctx self? true (stripQualifiers cs)
        = strippedStep ctx self? false (stripQualifiers cs)
      ∨ ∃ type, ¬ ConstTells ctx type
        ∧ ConstPair ("const ".toList ++ type) type
        ∧ strippedStep ctx self? true (stripQualifiers cs)
          = .again "" ("const ".toList ++ type) ""
        ∧ strippedStep ctx self? false (stripQualifiers cs)
          = .again "" type "" := by
  by_cases hnamed : IsNamed ctx cs
  swap
  · exact .inl (strippedStep_congr hnamed)
  by_cases halias : IsProperAlias ctx cs
  swap
  · left
    rw [strippedStep_of_not_alias hnamed halias,
      strippedStep_of_not_alias hnamed halias, mapNamed_congr]
    rintro ⟨hbase, hstars⟩
    have hone : starsOf cs = 1 := by
      have := hnamed.stars
      omega
    exact h (.char hnamed halias hbase hone)
  rw [strippedStep_of_alias hnamed halias,
    strippedStep_of_alias hnamed halias, targetStep, targetStep]
  cases hcallable : isBlockText (aliasText ctx cs).toList with
  | true => exact .inl (by rw [if_pos rfl, if_pos rfl])
  | false =>
      rw [if_neg Bool.false_ne_true, if_neg Bool.false_ne_true]
      cases hconst : isConstQualified
          ((aliasText ctx cs).toList.takeWhile (· ≠ '*')) with
      | true => exact .inl (by rw [Bool.true_or, Bool.true_or])
      | false =>
          refine .inr ⟨_, fun hnext =>
            h (.viaAlias hnamed halias hcallable hconst hnext),
            constPair_pointerTo (words_aliasText htargets halias) _, ?_, ?_⟩
          · rw [Bool.false_or, if_pos rfl]
          · rw [Bool.false_or, if_neg Bool.false_ne_true, List.nil_append]

/-- Where it does not tell, both are mapped alike. -/
theorem ConstPair.mapWithin_eq {cs : List Char} (h : ¬ ConstTells ctx cs)
    {as bs : List Char} (hpair : ConstPair as bs)
    (hcs : stripQualifiers bs = stripQualifiers cs) (steps : Nat) :
    mapWithin ctx self? steps as = mapWithin ctx self? steps bs := by
  induction steps generalizing cs as bs with
  | zero => rfl
  | succ steps ih =>
      rw [mapWithin, mapWithin, hpair.mapStep_eq.1, hpair.mapStep_eq.2, hcs]
      rcases strippedStep_cases htargets h with
        hsame | ⟨type, hnext, hboth, hwith, hwithout⟩
      · rw [hsame]
      · rw [hwith, hwithout]
        simp only
        rw [ih hnext hboth rfl]

end Pairs

/-! ### Qualifiers at the ends -/

lemma qualifierWords_isWord {q : String} (hq : q ∈ qualifierWords) :
    q.toList ∈ strippedWords ∧ q.toList ≠ [] ∧ IsWord q.toList
      ∧ q.toList ≠ "const".toList := by
  have hmem : q.toList ∈ strippedWords :=
    List.mem_map_of_mem (List.mem_cons_of_mem _ hq)
  obtain ⟨hne, hword⟩ := strippedWords_isWord _ hmem
  refine ⟨hmem, hne, hword, fun heq => ?_⟩
  have hconst : "const" ∉ qualifierWords := by decide
  exact hconst (String.toList_inj.mp heq ▸ hq)

lemma toList_append_space (a b : String) :
    (a ++ " " ++ b).toList = a.toList ++ ' ' :: b.toList := by
  rw [String.toList_append, String.toList_append, List.append_assoc]
  rfl

section Ends

variable {q t : String} (hq : q ∈ qualifierWords)
  (hword : ∃ w ∈ wordsIn t.toList, w ∉ strippedWords)
include hq hword

/-- A qualifier behind a type changes nothing. -/
theorem mapType_append_qualifier :
    mapType ctx self? (t ++ " " ++ q) = mapType ctx self? t := by
  obtain ⟨hmem, -⟩ := qualifierWords_isWord hq
  have hwords : wordsIn t.toList ≠ [] :=
    hword.elim fun w hw => List.ne_nil_of_mem hw.1
  refine mapType_congr ?_
  rw [mapStep_eq_strippedStep hwords, toList_append_space,
    mapStep_eq_strippedStep, leadsConst_append_word hword,
    stripQualifiers_append_word hmem]
  exact wordsIn_append_space_ne_nil (.inl hwords)

/-- A qualifier in front hides a leading `const` from the map. -/
lemma mapStep_qualifier_append :
    mapStep ctx self? (q ++ " " ++ t).toList
      = strippedStep ctx self? false (stripQualifiers t.toList) := by
  obtain ⟨hmem, hne, hisWord, hconst⟩ := qualifierWords_isWord hq
  have hwords : wordsIn t.toList ≠ [] :=
    hword.elim fun w hw => List.ne_nil_of_mem hw.1
  rw [toList_append_space, mapStep_eq_strippedStep,
    leadsConst_word_append hisWord hne hconst,
    stripQualifiers_word_append hmem]
  exact wordsIn_append_space_ne_nil (.inr hwords)

end Ends

/-- A qualifier behind a type changes nothing, and one in front of it
changes what it is mapped to exactly if the type leads with a `const` that
tells. -/
theorem mapType_qualifier {ctx : TypeContext} {self? : Option String}
    (htargets : ctx.TargetsNamed) {q t : String} (hq : q ∈ qualifierWords)
    (hword : ∃ w ∈ wordsIn t.toList, w ∉ strippedWords) :
    mapType ctx self? (t ++ " " ++ q) = mapType ctx self? t
      ∧ (mapType ctx self? (q ++ " " ++ t) = mapType ctx self? t
        ↔ ¬ (leadsConst t.toList = true ∧ ConstTells ctx t.toList)) := by
  refine ⟨mapType_append_qualifier hq hword, ?_⟩
  have hstep : mapStep ctx self? (q ++ " " ++ t).toList
      = strippedStep ctx self? false (stripQualifiers t.toList) :=
    mapStep_qualifier_append hq hword
  have hwords : wordsIn t.toList ≠ [] :=
    hword.elim fun w hw => List.ne_nil_of_mem hw.1
  cases hleads : leadsConst t.toList with
  | false =>
      refine iff_of_true (mapType_congr ?_) (by simp)
      rw [hstep, mapStep_eq_strippedStep hwords, hleads]
  | true =>
      obtain ⟨hmem, hne, hisWord, hconst⟩ := qualifierWords_isWord hq
      have hpair : ConstPair t.toList (q ++ " " ++ t).toList := by
        rw [toList_append_space]
        exact ⟨(stripQualifiers_word_append hmem _).symm, hwords,
          wordsIn_append_space_ne_nil (.inr hwords), hleads,
          leadsConst_word_append hisWord hne hconst _⟩
      by_cases htells : ConstTells ctx t.toList
      · refine iff_of_false ?_ fun hnot => hnot ⟨rfl, htells⟩
        obtain ⟨⟨m, hm⟩, n, hn⟩ :
            (∃ m, EndsAfter ctx self? m t.toList "string")
              ∧ ∃ n, EndsAfter ctx self? n (q ++ " " ++ t).toList
                (unsafePointer "sbyte") :=
          htells.endsAfter htargets hpair hpair.stripped.symm
        rw [hm.mapType_eq, hn.mapType_eq]
        decide
      · refine iff_of_true (mapType_congr_within fun steps => ?_)
          fun hboth => htells hboth.2
        exact (hpair.mapWithin_eq htargets htells hpair.stripped.symm
          steps).symm

/-- A name for characters. -/
def letterNames : TypeContext where
  aliases := [("Letter", "char")]

/-- With the qualifier in front the string is a pointer to bytes. -/
theorem mapType_qualifier_letter :
    mapType letterNames none ("const Letter *" ++ " " ++ "_Nullable")
        = "string"
      ∧ mapType letterNames none ("_Nullable" ++ " " ++ "Letter *")
        = mapType letterNames none "Letter *" := by
  have hword : ∃ w ∈ wordsIn "Letter *".toList, w ∉ strippedWords := by
    decide +kernel
  have htargets : letterNames.TargetsNamed := by
    unfold TypeContext.TargetsNamed
    decide +kernel
  refine ⟨?_, (mapType_qualifier htargets (by decide) hword).2.mpr ?_⟩
  · rw [(mapType_qualifier htargets (by decide) (by decide +kernel)).1]
    decide +kernel
  · have hleads : leadsConst "Letter *".toList = false := by decide +kernel
    rw [hleads]
    simp

/-- A pointer to `const` characters is a string, but not one with a
qualifier in front. -/
theorem not_mapType_qualifier_char :
    "_Nullable" ∈ qualifierWords
      ∧ (∃ w ∈ wordsIn "const char *".toList, w ∉ strippedWords)
      ∧ mapType {} none ("_Nullable" ++ " " ++ "const char *")
        ≠ mapType {} none "const char *" := by
  decide +kernel

end HeaderBinding
