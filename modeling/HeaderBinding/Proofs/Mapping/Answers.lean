/-
How many steps it takes to say whether a type is a reference.

* `referenceStep_again`: a step that goes on leads to what an alias stands
  for, with the stars of both;
* `referenceStep_pointerTo`: on pointers to one name the steps go the same
  way, however many stars there are;
* `AnswersAfter`: the answer is there after just so many steps;
* `AnswersAfter.le_stepBound`: it is never more than the bound, as no name
  is met on the way more than twice, with stars and without;
* `isObjectReference?_eq_some_iff`: so the bound cuts off no answer.
-/
import HeaderBinding.Mapping.Reference
import HeaderBinding.Proofs.Mapping.Steps

namespace HeaderBinding

variable {ctx : TypeContext}

/-! ### Where a step leads -/

/-- A step that goes on is that of an alias. -/
lemma referenceStep_again {cs type : List Char}
    (h : referenceStep ctx cs = .again type) :
    ctx.isAlias (String.ofList (baseOf cs)) = true
      ∧ baseOf (ctx.resolveText (String.ofList (baseOf cs))).toList ≠ baseOf cs
      ∧ type = pointerTo
        (baseOf (ctx.resolveText (String.ofList (baseOf cs))).toList)
        (starsOf cs
          + starsOf (ctx.resolveText (String.ofList (baseOf cs))).toList) := by
  unfold referenceStep at h
  simp only at h
  split at h
  · cases h
  split at h
  · cases h
  split at h
  · cases h
  split at h
  · cases h
  split at h
  · rename_i halias
    split at h
    · cases h
    · rename_i hne
      rw [ReferenceStep.again.injEq] at h
      refine ⟨halias, hne, ?_⟩
      rw [← h]
      simp only [baseOf, starsOf]
  · cases h

lemma aliasLeads_of_referenceStep {cs type : List Char}
    (h : referenceStep ctx cs = .again type) :
    AliasLeads ctx (baseOf cs) (starsOf cs) type := by
  obtain ⟨halias, hne, htype⟩ := referenceStep_again h
  refine ⟨halias, hne, false, ?_⟩
  rw [if_neg Bool.false_ne_true, List.nil_append, htype]

/-! ### Stars -/

section Stars

variable {base : List Char}

/-- A row of stars, at least one. -/
def stars (more : Nat) : List Char :=
  List.replicate (more + 1) '*'

lemma mem_stars_iff {c : Char} {more : Nat} : c ∈ stars more ↔ c = '*' := by
  rw [stars, List.mem_replicate]
  exact and_iff_right (Nat.succ_ne_zero more)

lemma head?_stars (more : Nat) : (stars more).head? = some '*' :=
  rfl

lemma tail_stars_succ (more : Nat) : (stars (more + 1)).tail = stars more :=
  rfl

lemma dropWhile_stars (more : Nat) :
    (stars more).dropWhile isBlank = stars more := by
  rw [stars, List.replicate_succ, List.dropWhile_cons_of_neg (by decide)]

lemma tidy_stars (more : Nat) : Tidy (stars more) := by
  rw [stars]
  induction more + 1 with
  | zero => exact tidy_nil
  | succ n ih => exact ih.cons (by decide)

lemma pointerTo_succ (base : List Char) (more : Nat) :
    pointerTo base (more + 1) = base ++ [' '] ++ stars more := by
  rw [pointerTo, if_neg (Nat.succ_ne_zero more), List.append_cons]
  rfl

/-- A tag ends in a space, so that no star belongs to one. -/
lemma tag_prefix_of_append_stars {tag cs : List Char} {more : Nat}
    (htag : tag ∈ tagPrefixes) (h : tag <+: cs ++ stars more) :
    tag <+: cs := by
  obtain ⟨word, -, rfl⟩ := tagPrefixes_word tag htag
  rcases List.prefix_or_prefix_of_prefix h (List.prefix_append _ _) with
    hle | ⟨behind, hbehind⟩
  · exact hle
  rw [← hbehind, List.prefix_append_right_inj] at h
  rcases behind.eq_nil_or_concat with rfl | ⟨front, last, rfl⟩
  · exact ⟨[], by rw [← hbehind, List.append_nil, List.append_nil]⟩
  · have hlast : last = '*' := mem_stars_iff.mp (h.subset (by simp))
    rw [List.concat_eq_append, ← List.append_assoc] at hbehind
    have hspace := List.append_inj_right' hbehind rfl
    rw [hlast] at hspace
    exact absurd hspace (by decide)

/-- What is in front of the stars does not change with their number, if
there are any. -/
lemma exists_stripQualifiers_pointerTo (h : IsBase base) :
    ∃ front, ∀ more, stripQualifiers (pointerTo base (more + 1))
      = front ++ stars more := by
  rcases eq_or_ne base [] with rfl | hne
  · refine ⟨[], fun more => ?_⟩
    have hspace : ∀ c ∈ [' '], isBlank c = true :=
      List.forall_mem_singleton.mpr (by decide)
    have hwords : ∀ w ∈ wordsIn (pointerTo [] (more + 1)),
        w ∉ strippedWords := by
      rw [wordsIn_pointerTo]
      exact h.words
    rw [stripQualifiers, blankOutWords_eq strippedWords_isWord hwords,
      pointerTo_succ, List.nil_append, squeeze_blanks_append hspace,
      squeeze_of_tidy (tidy_stars more)]
    refine dropTag_of_noTag fun tag htag hpre => ?_
    rw [List.prefix_nil.mp (tag_prefix_of_append_stars htag hpre)] at htag
    revert htag
    decide
  · refine ⟨dropTag (base ++ [' ']), fun more => ?_⟩
    rw [stripQualifiers_eq_dropTag h hne, pointerTo_succ]
    exact dropTag_append fun tag htag => tag_prefix_of_append_stars htag

/-- Stars at the end do not make a type a callable, nor an open list. -/
lemma isBlockText_append_stars (cs : List Char) (more : Nat) :
    isBlockText (cs ++ stars more) = isBlockText cs := by
  refine isBlockText_append (mt mem_stars_iff.mp (by decide)) ?_ cs
  rw [dropWhile_stars, head?_stars]
  decide

lemma isFunctionPointerText_append_stars (cs : List Char) (more : Nat) :
    isFunctionPointerText (cs ++ stars more) = isFunctionPointerText cs := by
  refine isFunctionPointerText_append (mt mem_stars_iff.mp (by decide))
    ?_ ?_ cs
  · rw [dropWhile_stars, head?_stars]
    decide
  · rw [dropWhile_stars]
    cases more with
    | zero => decide
    | succ more =>
        rw [tail_stars_succ, dropWhile_stars, head?_stars]
        decide

lemma isEmpty_append_stars (cs : List Char) (more : Nat) :
    (cs ++ stars more).isEmpty = false := by
  simp [stars]

lemma append_stars_ne_dots (cs : List Char) (more : Nat) :
    cs ++ stars more ≠ "...".toList := by
  intro heq
  have hmem : '*' ∈ "...".toList :=
    heq ▸ List.mem_append_right cs (mem_stars_iff.mpr rfl)
  exact absurd hmem (by decide)

/-- The number of stars of a pointer, if it is not zero, does not change
its name. -/
lemma splitPointers_append_stars {front : List Char} {more : Nat}
    (h : Tidy (front ++ stars more)) :
    splitPointers (front ++ stars more)
      = ((front.reverse.dropWhile isPointerMark).reverse,
        more + 1 + (front.reverse.takeWhile isPointerMark).count '*') := by
  have hmarks : ∀ c ∈ stars more, isPointerMark c = true := by
    intro c hc
    rw [mem_stars_iff.mp hc]
    decide
  have hreverse : (stars more).reverse = stars more := List.reverse_replicate
  have hcount : (stars more).count '*' = more + 1 := List.count_replicate_self
  rw [splitPointers, trim_of_tidy h]
  simp only [List.reverse_append, hreverse]
  rw [List.dropWhile_append_of_pos hmarks, List.takeWhile_append_of_pos hmarks,
    List.count_append, hcount]

/-- On pointers to one name the steps go the same way, however many stars
there are, if there are any. -/
theorem referenceStep_pointerTo (h : IsBase base) {depth depth' : Nat}
    (hdepth : depth = 0 ↔ depth' = 0) :
    (∃ answer answer', referenceStep ctx (pointerTo base depth) = .done answer
        ∧ referenceStep ctx (pointerTo base depth') = .done answer')
      ∨ ∃ next stars stars', IsBase next ∧ (stars = 0 ↔ stars' = 0)
        ∧ referenceStep ctx (pointerTo base depth)
          = .again (pointerTo next stars)
        ∧ referenceStep ctx (pointerTo base depth')
          = .again (pointerTo next stars') := by
  cases depth with
  | zero =>
      obtain rfl := hdepth.mp rfl
      cases hstep : referenceStep ctx (pointerTo base 0) with
      | done answer => exact .inl ⟨answer, answer, rfl, rfl⟩
      | again type =>
          obtain ⟨-, -, htype⟩ := referenceStep_again hstep
          rw [htype]
          exact .inr ⟨_, _, _, isBase_baseOf _, Iff.rfl, rfl, rfl⟩
  | succ more =>
      obtain ⟨more', rfl⟩ := Nat.exists_eq_succ_of_ne_zero
        (mt hdepth.mpr (Nat.succ_ne_zero more))
      obtain ⟨front, hfront⟩ := exists_stripQualifiers_pointerTo h
      have htidy : ∀ more, Tidy (front ++ stars more) := fun more =>
        hfront more ▸ tidy_stripQualifiers _
      simp only [referenceStep, hfront, splitPointers_append_stars (htidy _),
        isEmpty_append_stars, append_stars_ne_dots, isBlockText_append_stars,
        isFunctionPointerText_append_stars, Bool.false_eq_true, or_self,
        if_false]
      split
      · exact .inl ⟨_, _, rfl, rfl⟩
      split
      · exact .inl ⟨_, _, rfl, rfl⟩
      split
      · exact .inl ⟨_, _, rfl, rfl⟩
      split
      · split
        · exact .inl ⟨_, _, rfl, rfl⟩
        · exact .inr ⟨_, _, _, isBase_baseOf _, by omega, rfl, rfl⟩
      · exact .inl ⟨_, _, rfl, rfl⟩

end Stars

/-! ### Runs that end -/

/-- The answer is there after just so many steps. -/
inductive AnswersAfter (ctx : TypeContext) : Nat → List Char → Bool → Prop
  | done {cs : List Char} {answer : Bool}
      (h : referenceStep ctx cs = .done answer) : AnswersAfter ctx 1 cs answer
  | again {steps : Nat} {cs type : List Char} {answer : Bool}
      (h : referenceStep ctx cs = .again type)
      (hanswers : AnswersAfter ctx steps type answer) :
      AnswersAfter ctx (steps + 1) cs answer

/-- The number of steps is settled, and so is the answer. -/
lemma AnswersAfter.unique {m n : Nat} {cs : List Char} {a b : Bool}
    (hm : AnswersAfter ctx m cs a) (hn : AnswersAfter ctx n cs b) :
    m = n ∧ a = b := by
  induction hm generalizing n b with
  | done h =>
      cases hn with
      | done h' =>
          rw [h, ReferenceStep.done.injEq] at h'
          exact ⟨rfl, h'⟩
      | again h' => rw [h] at h'; cases h'
  | again h _ ih =>
      cases hn with
      | done h' => rw [h] at h'; cases h'
      | again h' hanswers =>
          rw [h, ReferenceStep.again.injEq] at h'
          obtain rfl := h'
          obtain ⟨rfl, rfl⟩ := ih hanswers
          exact ⟨rfl, rfl⟩

/-- An answer within some steps is there after just so many of them. -/
theorem referenceWithin_eq_some_iff {steps : Nat} {cs : List Char}
    {answer : Bool} :
    referenceWithin ctx steps cs = some answer
      ↔ ∃ n ≤ steps, AnswersAfter ctx n cs answer := by
  constructor
  · intro h
    induction steps generalizing cs with
    | zero => cases h
    | succ steps ih =>
        rw [referenceWithin] at h
        cases hstep : referenceStep ctx cs with
        | done answer' =>
            rw [hstep] at h
            obtain rfl := Option.some.inj h
            exact ⟨1, by omega, .done hstep⟩
        | again type =>
            rw [hstep] at h
            obtain ⟨n, hle, hn⟩ := ih h
            exact ⟨n + 1, by omega, .again hstep hn⟩
  · rintro ⟨n, hle, h⟩
    induction h generalizing steps with
    | done h =>
        obtain ⟨k, rfl⟩ := Nat.exists_eq_add_of_le' hle
        rw [referenceWithin, h]
    | @again n cs type answer h _ ih =>
        obtain ⟨k, rfl⟩ := Nat.exists_eq_add_of_le' hle
        rw [← Nat.add_assoc, referenceWithin, h]
        exact ih (Nat.le_add_left n k)

/-- Pointers to one name have their answers after the same number of
steps. -/
lemma AnswersAfter.of_pointerTo {n : Nat} {base : List Char}
    (hbase : IsBase base) {depth depth' : Nat}
    (hdepth : depth = 0 ↔ depth' = 0) {answer : Bool}
    (h : AnswersAfter ctx n (pointerTo base depth) answer) :
    ∃ answer', AnswersAfter ctx n (pointerTo base depth') answer' := by
  generalize hcs : pointerTo base depth = cs at h
  induction h generalizing base depth depth' with
  | done h =>
      subst hcs
      rcases @referenceStep_pointerTo ctx base hbase _ _ hdepth with
        ⟨_, answer', -, h'⟩ | ⟨_, _, _, -, -, h', -⟩
      · exact ⟨answer', .done h'⟩
      · rw [h] at h'
        cases h'
  | again h _ ih =>
      subst hcs
      rcases @referenceStep_pointerTo ctx base hbase _ _ hdepth with
        ⟨_, _, h', -⟩ | ⟨next, stars, stars', hnext, hstars, h', hagain⟩
      · rw [h] at h'
        cases h'
      · rw [h, ReferenceStep.again.injEq] at h'
        obtain ⟨answer', hanswer'⟩ := ih hnext hstars h'.symm
        exact ⟨answer', .again hagain hanswer'⟩

/-! ### The bound -/

/-- The names that aliases may stand for, each with stars and without. -/
def targetNames (ctx : TypeContext) : List (List Char × Bool) :=
  ctx.aliases.flatMap fun entry =>
    [(baseOf entry.2.toList, true), (baseOf entry.2.toList, false)]

/-- A run that ends takes no more steps than there are names on the way, with
stars and without, but for the first.  Every name is met once with stars and
once without, as the answers for both kinds are there after numbers of steps
of their own. -/
theorem AnswersAfter.le_length {n : Nat} {cs : List Char} {answer : Bool}
    (h : AnswersAfter ctx n cs answer) {names : List (List Char × Bool)}
    (hnames : ∀ entry ∈ ctx.aliases, ∀ depth, ∀ k < n, ∀ b,
      AnswersAfter ctx k (pointerTo (baseOf entry.2.toList) depth) b →
        (baseOf entry.2.toList, decide (depth = 0)) ∈ names) :
    n ≤ names.length + 1 := by
  induction h generalizing names with
  | done => omega
  | @again n cs type answer h hanswers ih =>
      obtain ⟨halias, -, htype⟩ := referenceStep_again h
      obtain ⟨entry, hentry, htext⟩ := exists_resolveText halias
      rw [htype, htext] at hanswers
      generalize starsOf cs + starsOf entry.2.toList = depth at hanswers
      have hmem := hnames entry hentry depth n (Nat.lt_succ_self n) _ hanswers
      suffices hle : n ≤ (names.erase
          (baseOf entry.2.toList, decide (depth = 0))).length + 1 by
        have := List.length_erase_add_one hmem
        omega
      -- the name is not met again
      refine ih fun entry' hentry' depth' k hk b hb => ?_
      refine (List.mem_erase_of_ne fun heq => ?_).mpr
        (hnames entry' hentry' depth' k (by omega) b hb)
      obtain ⟨hname, hstars⟩ := Prod.mk.inj heq
      rw [hname] at hb
      obtain ⟨_, hagain⟩ := hb.of_pointerTo (isBase_baseOf _)
        (decide_eq_decide.mp hstars)
      have := (hagain.unique hanswers).1
      omega

lemma length_targetNames_le_stepBound (cs : List Char) :
    (targetNames ctx).length + 1 ≤ stepBound ctx cs := by
  have hfold : ∀ (table : List (String × String)) (n : Nat),
      n + (table.flatMap fun entry => [(baseOf entry.2.toList, true),
          (baseOf entry.2.toList, false)]).length
        ≤ table.foldl (fun n a => n + 6 + a.2.toList.length) n := by
    intro table
    induction table with
    | nil => exact fun n => Nat.le_refl n
    | cons entry table ih =>
        intro n
        have := ih (n + 6 + entry.2.toList.length)
        rw [List.flatMap_cons, List.length_append, List.foldl_cons]
        simp only [List.length_cons, List.length_nil]
        omega
  have := hfold ctx.aliases 0
  rw [stepBound, targetNames]
  omega

/-- A run that ends stays within the bound. -/
theorem AnswersAfter.le_stepBound {n : Nat} {cs : List Char} {answer : Bool}
    (h : AnswersAfter ctx n cs answer) : n ≤ stepBound ctx cs := by
  have hall : ∀ entry ∈ ctx.aliases, ∀ depth, ∀ k < n, ∀ b,
      AnswersAfter ctx k (pointerTo (baseOf entry.2.toList) depth) b →
        (baseOf entry.2.toList, decide (depth = 0)) ∈ targetNames ctx := by
    intro entry hentry depth _ _ _ _
    refine List.mem_flatMap.mpr ⟨entry, hentry, ?_⟩
    cases decide (depth = 0) <;> simp
  exact (h.le_length hall).trans (length_targetNames_le_stepBound cs)

/-- The bound cuts off no answer. -/
theorem isObjectReference?_eq_some_iff {type : String} {answer : Bool} :
    isObjectReference? ctx type = some answer
      ↔ ∃ n, AnswersAfter ctx n type.toList answer := by
  rw [isObjectReference?, referenceWithin_eq_some_iff]
  constructor
  · rintro ⟨n, -, hn⟩
    exact ⟨n, hn⟩
  · rintro ⟨n, hn⟩
    exact ⟨n, hn.le_stepBound, hn⟩

/-- It is settled whether the type is a reference. -/
def Answers (ctx : TypeContext) (cs : List Char) : Prop :=
  ∃ n answer, AnswersAfter ctx n cs answer

theorem isSome_isObjectReference?_iff {type : String} :
    (isObjectReference? ctx type).isSome = true
      ↔ Answers ctx type.toList := by
  rw [Option.isSome_iff_exists]
  constructor
  · rintro ⟨answer, h⟩
    obtain ⟨n, hn⟩ := isObjectReference?_eq_some_iff.mp h
    exact ⟨n, answer, hn⟩
  · rintro ⟨n, answer, hn⟩
    exact ⟨answer, isObjectReference?_eq_some_iff.mpr ⟨n, hn⟩⟩

end HeaderBinding
