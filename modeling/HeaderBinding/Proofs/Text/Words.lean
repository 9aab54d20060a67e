/-
The words of a text.

* `wordsIn`: the maximal runs of word characters, in order;
  `wordsIn_append_cons`: what does not belong to words parts them;
* `run_induction`: a text is a row of words and gaps; `wordRuns_run`: it is
  cut there;
* `hasWord_iff`: a word occurs exactly if it is one of them;
* `apply_squeeze`: squeezing changes nothing that sees no blanks;
* `wordsIn_blankOutWords`, `wordsIn_squeeze`, `wordsIn_trim`: which words
  are left when some give way to blanks, and that blanks do not matter.
-/
import Mathlib.Data.List.SplitBy
import Mathlib.Data.List.TakeWhile
import Mathlib.Tactic.Lemma
import HeaderBinding.Mapping.TypeText

namespace HeaderBinding

/-! ### Words -/

/-- A word that was read, unless nothing was. -/
def closedWord (word : List Char) : List (List Char) :=
  if word.isEmpty then [] else [word]

/-- The words of a text behind `word`, which it may go on. -/
def wordsFrom : List Char → List Char → List (List Char)
  | word, [] => closedWord word
  | word, c :: cs =>
    if isWordChar c then wordsFrom (word ++ [c]) cs
    else closedWord word ++ wordsFrom [] cs

/-- The maximal runs of word characters. -/
def wordsIn (cs : List Char) : List (List Char) :=
  wordsFrom [] cs

/-- Only word characters. -/
def IsWord (cs : List Char) : Prop :=
  ∀ c ∈ cs, isWordChar c = true

/-- No word characters. -/
def IsGap (cs : List Char) : Prop :=
  ∀ c ∈ cs, isWordChar c = false

-- by the list, as there are too many characters to go through them all
instance (cs : List Char) : Decidable (IsWord cs) :=
  List.decidableBAll _ cs

instance (cs : List Char) : Decidable (IsGap cs) :=
  List.decidableBAll _ cs

@[simp] lemma wordsIn_nil : wordsIn [] = [] := rfl

lemma wordsFrom_word {w : List Char} (h : IsWord w)
    (word rest : List Char) :
    wordsFrom word (w ++ rest) = wordsFrom (word ++ w) rest := by
  induction w generalizing word with
  | nil => rw [List.nil_append, List.append_nil]
  | cons c w ih =>
      obtain ⟨hc, hw⟩ := List.forall_mem_cons.mp h
      rw [List.cons_append, wordsFrom, if_pos hc, ih hw,
        List.append_assoc, List.singleton_append]

lemma wordsFrom_append_cons (word as : List Char) {c : Char}
    (hc : isWordChar c = false) (bs : List Char) :
    wordsFrom word (as ++ c :: bs) = wordsFrom word as ++ wordsIn bs := by
  induction as generalizing word with
  | nil =>
      rw [List.nil_append, wordsFrom.eq_def word (c :: bs)]
      simp only [hc, Bool.false_eq_true, if_false]
      rfl
  | cons a as ih =>
      rw [List.cons_append, wordsFrom, wordsFrom, ih, ih]
      split
      · rfl
      · exact (List.append_assoc _ _ _).symm

/-- A character that belongs to no word parts the words. -/
lemma wordsIn_append_cons (as : List Char) {c : Char}
    (hc : isWordChar c = false) (bs : List Char) :
    wordsIn (as ++ c :: bs) = wordsIn as ++ wordsIn bs :=
  wordsFrom_append_cons [] as hc bs

lemma wordsIn_cons {c : Char} (hc : isWordChar c = false)
    (cs : List Char) : wordsIn (c :: cs) = wordsIn cs :=
  wordsIn_append_cons [] hc cs

lemma wordsIn_of_isWord {w : List Char} (h : IsWord w) :
    wordsIn w = closedWord w := by
  have := wordsFrom_word h [] []
  rwa [List.append_nil, List.nil_append] at this

/-- A word has no other word in it. -/
lemma eq_of_mem_wordsIn {v w : List Char} (hw : IsWord w)
    (h : v ∈ wordsIn w) : v = w := by
  rw [wordsIn_of_isWord hw, closedWord] at h
  split at h
  · cases h
  · exact List.mem_singleton.mp h

/-- A word that is read is a part of what was open and what follows. -/
lemma infix_of_mem_wordsFrom {w word cs : List Char}
    (h : w ∈ wordsFrom word cs) : w <:+: word ++ cs := by
  have hclosed : ∀ {v rest : List Char}, w ∈ closedWord v →
      w <:+: v ++ rest := by
    intro v rest hv
    rw [closedWord] at hv
    split at hv
    · cases hv
    · obtain rfl := List.mem_singleton.mp hv
      exact (List.prefix_append _ _).isInfix
  induction cs generalizing word with
  | nil => exact hclosed h
  | cons c cs ih =>
      rw [wordsFrom] at h
      split at h
      · have := ih h
        rwa [List.append_assoc] at this
      · rcases List.mem_append.mp h with h | h
        · exact hclosed h
        · have hrest : cs <:+ word ++ c :: cs :=
            (List.suffix_cons c cs).trans (List.suffix_append _ _)
          exact (ih h).trans hrest.isInfix

/-- A word of a text is a part of it. -/
lemma infix_of_mem_wordsIn {w cs : List Char} (h : w ∈ wordsIn cs) :
    w <:+: cs :=
  infix_of_mem_wordsFrom h

/-- A gap at the start does not matter. -/
lemma wordsIn_gap_append {gap : List Char} (h : IsGap gap)
    (cs : List Char) : wordsIn (gap ++ cs) = wordsIn cs := by
  induction gap with
  | nil => rfl
  | cons c gap ih =>
      obtain ⟨hc, hg⟩ := List.forall_mem_cons.mp h
      rw [List.cons_append, wordsIn_cons hc, ih hg]

/-- A gap at the end does not matter. -/
lemma wordsIn_append_gap (cs : List Char) {gap : List Char}
    (h : IsGap gap) : wordsIn (cs ++ gap) = wordsIn cs := by
  cases gap with
  | nil => rw [List.append_nil]
  | cons c gap =>
      obtain ⟨hc, hg⟩ := List.forall_mem_cons.mp h
      have hgap : wordsIn gap = [] := by
        have := wordsIn_gap_append hg []
        rwa [List.append_nil] at this
      rw [wordsIn_append_cons cs hc, hgap, List.append_nil]

/-- A word in front of a gap is a word of its own. -/
lemma wordsIn_word_append {w rest : List Char} (h : IsWord w)
    (hrest : ∀ c ∈ rest.head?, isWordChar c = false) :
    wordsIn (w ++ rest) = closedWord w ++ wordsIn rest := by
  cases rest with
  | nil => rw [List.append_nil, wordsIn_of_isWord h, wordsIn_nil,
      List.append_nil]
  | cons c rest =>
      have hc := hrest c rfl
      rw [wordsIn_append_cons w hc, wordsIn_cons hc, wordsIn_of_isWord h]

/-- The end of the word that is being read, and the words behind it. -/
lemma exists_wordsFrom (cs : List Char) :
    ∃ w ws, ∀ word, wordsFrom word cs = closedWord (word ++ w) ++ ws := by
  induction cs with
  | nil => exact ⟨[], [], fun word => by simp [wordsFrom]⟩
  | cons c cs ih =>
      by_cases hc : isWordChar c = true
      · obtain ⟨w, ws, h⟩ := ih
        refine ⟨c :: w, ws, fun word => ?_⟩
        rw [wordsFrom, if_pos hc, h, List.append_assoc]
        rfl
      · refine ⟨[], wordsIn cs, fun word => ?_⟩
        rw [wordsFrom, if_neg hc, List.append_nil]
        rfl

/-- In front of a text a word takes up at most its first word. -/
lemma mem_wordsIn_word_append {v w cs : List Char} (hv : IsWord v)
    (h : w ∈ wordsIn (v ++ cs)) : v <+: w ∨ w ∈ wordsIn cs := by
  obtain ⟨end', ws, heq⟩ := exists_wordsFrom cs
  rw [wordsIn, wordsFrom_word hv, heq] at h
  rcases List.mem_append.mp h with h | h
  · refine .inl ?_
    rw [closedWord] at h
    split at h
    · cases h
    · exact List.mem_singleton.mp h ▸ List.prefix_append v end'
  · exact .inr (by rw [wordsIn, heq]; exact List.mem_append_right _ h)

/-- The words of a text before its last one, and how that one starts. -/
lemma exists_wordsFrom_append (word as : List Char) :
    ∃ ws last, ∀ w, IsWord w →
      wordsFrom word (as ++ w) = ws ++ closedWord (last ++ w) := by
  induction as generalizing word with
  | nil =>
      refine ⟨[], word, fun w hw => ?_⟩
      have := wordsFrom_word hw word []
      rwa [List.append_nil] at this
  | cons a as ih =>
      by_cases ha : isWordChar a = true
      · obtain ⟨ws, last, h⟩ := ih (word ++ [a])
        exact ⟨ws, last, fun w hw => by
          rw [List.cons_append, wordsFrom, if_pos ha, h w hw]⟩
      · obtain ⟨ws, last, h⟩ := ih []
        exact ⟨closedWord word ++ ws, last, fun w hw => by
          rw [List.cons_append, wordsFrom, if_neg ha, h w hw,
            List.append_assoc]⟩

/-- With another word at its end a text changes at most its last word. -/
lemma mem_wordsIn_append_word {as u v w : List Char} (hu : IsWord u)
    (hv : IsWord v) (h : w ∈ wordsIn (as ++ v)) :
    v <:+ w ∨ w ∈ wordsIn (as ++ u) := by
  obtain ⟨ws, last, heq⟩ := exists_wordsFrom_append [] as
  rw [wordsIn, heq v hv] at h
  rcases List.mem_append.mp h with h | h
  · exact .inr (by rw [wordsIn, heq u hu]; exact List.mem_append_left _ h)
  · refine .inl ?_
    rw [closedWord] at h
    split at h
    · cases h
    · exact List.mem_singleton.mp h ▸ List.suffix_append last v

/-! ### Runs -/

/-- Whether the characters of a text belong to words. -/
def Uniform (b : Bool) (run : List Char) : Prop :=
  ∀ c ∈ run, isWordChar c = b

lemma wordRuns_run {b : Bool} {run rest : List Char} (hne : run ≠ [])
    (hr : Uniform b run) (hrest : ∀ c ∈ rest.head?, isWordChar c = !b) :
    wordRuns (run ++ rest) = run :: wordRuns rest := by
  have hlast : ∀ x ∈ run.getLast?, ∀ y ∈ rest.head?,
      (isWordChar x == isWordChar y) = false := by
    intro x hx y hy
    rw [hr x (List.mem_of_mem_getLast? hx), hrest y hy]
    cases b <;> rfl
  have hchain : run.IsChain
      (fun x y => (isWordChar x == isWordChar y) = true) :=
    List.Pairwise.isChain (List.pairwise_of_forall_mem_list
      fun x hx y hy => by rw [hr x hx, hr y hy]; exact beq_self_eq_true b)
  rw [wordRuns, List.splitBy_append hlast, List.splitBy_of_isChain hne hchain]
  rfl

/-- A text is a row of words and gaps. -/
theorem run_induction {motive : List Char → Prop} (nil : motive [])
    (run : ∀ b run rest, run ≠ [] → Uniform b run →
      (∀ c ∈ rest.head?, isWordChar c = !b) → motive rest →
      motive (run ++ rest)) (cs : List Char) : motive cs := by
  induction hn : cs.length using Nat.strong_induction_on generalizing cs with
  | _ n ih =>
      cases cs with
      | nil => exact nil
      | cons c cs =>
          have hsplit := List.takeWhile_append_dropWhile
            (p := (isWordChar · == isWordChar c)) (l := cs)
          have hlt : (cs.dropWhile (isWordChar · == isWordChar c)).length
              < n := by
            have := (List.dropWhile_sublist
              (l := cs) (isWordChar · == isWordChar c)).length_le
            rw [List.length_cons] at hn
            omega
          have hrest := ih _ hlt _ rfl
          have := run (isWordChar c)
            (c :: cs.takeWhile (isWordChar · == isWordChar c)) _
            (List.cons_ne_nil _ _) ?_ ?_ hrest
          · rwa [List.cons_append, hsplit] at this
          · refine List.forall_mem_cons.mpr ⟨rfl, fun d hd => ?_⟩
            simpa using List.mem_takeWhile_imp hd
          · intro d hd
            have := List.head?_dropWhile_not
              (isWordChar · == isWordChar c) cs
            rw [hd] at this
            exact Bool.eq_not_of_ne (by simpa using this)

/-- A word occurs exactly if it is one of the words. -/
theorem hasWord_iff {w : List Char} (hne : w ≠ []) (hw : IsWord w)
    (cs : List Char) : hasWord w cs = true ↔ w ∈ wordsIn cs := by
  rw [hasWord, List.contains_iff_mem]
  induction cs using run_induction with
  | nil => exact Iff.rfl
  | run b run rest hrun hu hrest ih =>
      rw [wordRuns_run hrun hu hrest, List.mem_cons, ih]
      cases b with
      | true =>
          rw [wordsIn_word_append hu hrest, closedWord,
            if_neg (by simpa using hrun)]
          exact List.mem_cons.symm
      | false =>
          rw [wordsIn_gap_append hu]
          refine or_iff_right fun heq => ?_
          obtain ⟨c, cs, rfl⟩ := List.exists_cons_of_ne_nil hne
          have := hw c List.mem_cons_self
          rw [hu c (heq ▸ List.mem_cons_self)] at this
          cases this

/-! ### Blanks -/

/-- The codes of the blanks. -/
def blankCodes : List Nat :=
  ((9, 13) :: (0x1c, 0x20) :: blankRanges).flatMap fun r =>
    List.range' r.1 (r.2 + 1 - r.1)

lemma mem_blankCodes {c : Char} (h : isBlank c = true) :
    c.toNat ∈ blankCodes := by
  have hin : ∃ r ∈ (9, 13) :: (0x1c, 0x20) :: blankRanges,
      r.1 ≤ c.toNat ∧ c.toNat ≤ r.2 := by
    unfold isBlank at h
    split at h
    · simp only [Bool.or_eq_true, Bool.and_eq_true, decide_eq_true_eq] at h
      exact h.elim (fun h => ⟨(9, 13), by simp, h⟩)
        fun h => ⟨(0x1c, 0x20), by simp, h⟩
    · obtain ⟨r, hr, hle⟩ := inRanges_eq_true_iff.mp h
      exact ⟨r, by simp [hr], hle⟩
  obtain ⟨r, hr, hle⟩ := hin
  exact List.mem_flatMap.mpr ⟨r, hr, List.mem_range'_1.mpr (by omega)⟩

/-- No blank belongs to a word. -/
lemma isWordChar_of_isBlank {c : Char} (h : isBlank c = true) :
    isWordChar c = false := by
  have hall : ∀ n ∈ blankCodes, isWordChar (Char.ofNat n) = false := by
    decide +kernel
  have := hall c.toNat (mem_blankCodes h)
  rwa [Char.ofNat_toNat] at this

/-- What is dropped at the start are characters of that kind. -/
lemma exists_append_dropWhile (p : Char → Bool) (cs : List Char) :
    ∃ gap, cs = gap ++ cs.dropWhile p ∧ ∀ c ∈ gap, p c = true :=
  ⟨cs.takeWhile p, List.takeWhile_append_dropWhile.symm,
    fun _ => List.mem_takeWhile_imp⟩

/-- What is dropped at the end are characters of that kind. -/
lemma exists_dropEnd_append (p : Char → Bool) (cs : List Char) :
    ∃ gap, cs = (cs.reverse.dropWhile p).reverse ++ gap
      ∧ ∀ c ∈ gap, p c = true := by
  obtain ⟨gap, heq, hgap⟩ := exists_append_dropWhile p cs.reverse
  refine ⟨gap.reverse, ?_, fun c hc => hgap c (List.mem_reverse.mp hc)⟩
  rw [← List.reverse_append, ← heq, List.reverse_reverse]

/-- Dropping a gap at the start leaves the words. -/
lemma wordsIn_dropWhile {p : Char → Bool}
    (hp : ∀ c, p c = true → isWordChar c = false) (cs : List Char) :
    wordsIn (cs.dropWhile p) = wordsIn cs := by
  obtain ⟨gap, heq, hgap⟩ := exists_append_dropWhile p cs
  conv_rhs => rw [heq, wordsIn_gap_append fun c hc => hp c (hgap c hc)]

/-- Dropping a gap at the end leaves the words. -/
lemma wordsIn_dropEnd {p : Char → Bool}
    (hp : ∀ c, p c = true → isWordChar c = false) (cs : List Char) :
    wordsIn (cs.reverse.dropWhile p).reverse = wordsIn cs := by
  obtain ⟨gap, heq, hgap⟩ := exists_dropEnd_append p cs
  conv_rhs => rw [heq, wordsIn_append_gap _ fun c hc => hp c (hgap c hc)]

@[simp] lemma wordsIn_trim (cs : List Char) :
    wordsIn (trim cs) = wordsIn cs := by
  rw [trim, trimRight, wordsIn_dropEnd fun _ => isWordChar_of_isBlank,
    trimLeft, wordsIn_dropWhile fun _ => isWordChar_of_isBlank]

/-! ### Up to a character -/

section UpTo

variable {c : Char} {as : List Char} (h : c ∉ as) (bs : List Char)
include h

lemma takeWhile_ne_append : (as ++ c :: bs).takeWhile (· ≠ c) = as := by
  rw [List.takeWhile_append_of_pos,
    List.takeWhile_cons_of_neg (by simp), List.append_nil]
  exact fun a ha => decide_eq_true fun heq => h (heq ▸ ha)

lemma dropWhile_ne_append : (as ++ c :: bs).dropWhile (· ≠ c) = c :: bs := by
  rw [List.dropWhile_append_of_pos, List.dropWhile_cons_of_neg (by simp)]
  exact fun a ha => decide_eq_true fun heq => h (heq ▸ ha)

end UpTo

/-! ### Squeezing -/

lemma squeeze_blank {c : Char} (hc : isBlank c = true) (cs : List Char) :
    squeeze (c :: cs) = squeeze cs := by
  rw [squeeze, blankSeparated.eq_def]
  simp only [hc, if_true]
  rfl

lemma squeeze_single {c : Char} (hc : isBlank c = false) :
    squeeze [c] = [c] := by
  rw [squeeze, blankSeparated.eq_def]
  simp only [hc, Bool.false_eq_true, if_false]
  rfl

/-- The piece that a character starts. -/
lemma exists_blankSeparated {c : Char} (hc : isBlank c = false)
    (cs : List Char) :
    ∃ w ws, blankSeparated (c :: cs) = (c :: w) :: ws := by
  rw [blankSeparated.eq_def]
  simp only [hc, Bool.false_eq_true, if_false]
  split
  · exact ⟨_, _, rfl⟩
  · split
    · exact ⟨_, _, rfl⟩
    · split <;> exact ⟨_, _, rfl⟩

/-- In front of more of its piece a character stays in front. -/
lemma squeeze_cons {c d : Char} (hc : isBlank c = false)
    (hd : isBlank d = false) (cs : List Char) :
    squeeze (c :: d :: cs) = c :: squeeze (d :: cs) := by
  obtain ⟨w, ws, hw⟩ := exists_blankSeparated hd cs
  rw [squeeze, squeeze, blankSeparated.eq_def (c :: d :: cs)]
  simp only [hc, hd, hw, Bool.false_eq_true, if_false]
  cases ws with
  | nil => simp only [List.intercalate_singleton]
  | cons v ws => simp only [List.intercalate_cons_cons, List.cons_append]

/-- No piece is empty. -/
lemma blankSeparated_ne_nil {cs w : List Char}
    (hw : w ∈ blankSeparated cs) : w ≠ [] := by
  fun_induction blankSeparated cs with
  | case1 => cases hw
  | case2 c cs hc ih => exact ih hw
  | case3 c hc => simp_all
  | case4 c hc d cs hd ih =>
      rcases List.mem_cons.mp hw with rfl | hw
      · exact List.cons_ne_nil _ _
      · exact ih hw
  | case5 c hc d cs hd hnil ih => simp_all
  | case6 c hc d cs hd v vs hcons ih =>
      rw [hcons] at hw
      rcases List.mem_cons.mp hw with rfl | hw
      · exact List.cons_ne_nil _ _
      · exact ih (hcons ▸ List.mem_cons_of_mem _ hw)

/-- In front of a blank a character ends its piece. -/
lemma squeeze_cons_blank {c d : Char} (hc : isBlank c = false)
    (hd : isBlank d = true) (cs : List Char) :
    squeeze (c :: d :: cs) = c :: if squeeze cs = [] then []
      else ' ' :: squeeze cs := by
  have hskip : blankSeparated (d :: cs) = blankSeparated cs := by
    rw [blankSeparated.eq_def]
    simp only [hd, if_true]
  have hpieces : blankSeparated (c :: d :: cs)
      = [c] :: blankSeparated cs := by
    rw [blankSeparated.eq_def]
    simp only [hc, hd, hskip, Bool.false_eq_true, if_false, if_true]
  rw [squeeze, squeeze, hpieces]
  cases hcs : blankSeparated cs with
  | nil => rfl
  | cons w ws =>
      have hw : w ≠ [] := blankSeparated_ne_nil (hcs ▸ List.mem_cons_self)
      have hne : [' '].intercalate (w :: ws) ≠ [] := by
        cases ws <;> simp [hw]
      rw [List.intercalate_cons_cons, if_neg hne]
      rfl

/-- What is behind a character counts only by its words. -/
lemma wordsFrom_cons_congr {as bs : List Char}
    (h : ∀ word, wordsFrom word as = wordsFrom word bs)
    (word : List Char) (c : Char) :
    wordsFrom word (c :: as) = wordsFrom word (c :: bs) := by
  rw [wordsFrom, wordsFrom, h, h]

/-- What sees no blanks sees no squeezing. -/
theorem apply_squeeze {β : Type} {f : List Char → β}
    (hblank : ∀ {c}, isBlank c = true → ∀ cs, f (c :: cs) = f cs)
    (hcons : ∀ {as bs}, f as = f bs → ∀ c, f (c :: as) = f (c :: bs))
    (cs : List Char) : f (squeeze cs) = f cs := by
  induction cs with
  | nil => rfl
  | cons c cs ih =>
      by_cases hc : isBlank c = true
      · rw [squeeze_blank hc, ih, hblank hc]
      rw [Bool.not_eq_true] at hc
      cases cs with
      | nil => rw [squeeze_single hc]
      | cons d cs =>
          by_cases hd : isBlank d = true
          · rw [squeeze_blank hd, hblank hd] at ih
            rw [squeeze_cons_blank hc hd]
            refine hcons ?_ c
            rw [hblank hd, ← ih]
            split
            · rename_i hnil
              rw [hnil]
            · exact hblank (by decide) _
          · rw [Bool.not_eq_true] at hd
            rw [squeeze_cons hc hd]
            exact hcons ih c

/-- A piece that starts goes on with the word that was read before. -/
lemma wordsFrom_squeeze (cs : List Char) :
    wordsIn (squeeze cs) = wordsIn cs
      ∧ ∀ word, (∀ c ∈ cs.head?, isBlank c = false) →
        wordsFrom word (squeeze cs) = wordsFrom word cs := by
  induction cs with
  | nil => exact ⟨rfl, fun _ _ => rfl⟩
  | cons c cs ih =>
      by_cases hc : isBlank c = true
      · refine ⟨?_, fun _ h => by simp_all⟩
        rw [squeeze_blank hc, ih.1, wordsIn_cons (isWordChar_of_isBlank hc)]
      rw [Bool.not_eq_true] at hc
      suffices hall : ∀ word, wordsFrom word (squeeze (c :: cs))
          = wordsFrom word (c :: cs) from
        ⟨hall [], fun word _ => hall word⟩
      intro word
      cases cs with
      | nil => rw [squeeze_single hc]
      | cons d cs =>
          by_cases hd : isBlank d = true
          · have hwords : wordsIn (squeeze cs) = wordsIn cs := by
              have := ih.1
              rwa [squeeze_blank hd, wordsIn_cons
                (isWordChar_of_isBlank hd)] at this
            rw [squeeze_cons_blank hc hd]
            refine wordsFrom_cons_congr (fun word => ?_) word c
            rw [← List.nil_append (d :: cs), wordsFrom_append_cons word []
              (isWordChar_of_isBlank hd), ← hwords]
            split
            · rename_i hnil
              rw [hnil, wordsIn_nil, List.append_nil]
            · exact wordsFrom_append_cons word [] (by decide) _
          · rw [Bool.not_eq_true] at hd
            rw [squeeze_cons hc hd]
            exact wordsFrom_cons_congr
              (fun word => ih.2 word (by simpa using hd)) word c

@[simp] lemma wordsIn_squeeze (cs : List Char) :
    wordsIn (squeeze cs) = wordsIn cs :=
  (wordsFrom_squeeze cs).1

/-! ### Blanking out -/

lemma blankOutWords_run {b : Bool} {run rest : List Char} (hne : run ≠ [])
    (hr : Uniform b run) (hrest : ∀ c ∈ rest.head?, isWordChar c = !b)
    (words : List (List Char)) :
    blankOutWords words (run ++ rest)
      = (if words.contains run then [' '] else run)
        ++ blankOutWords words rest := by
  rw [blankOutWords, wordRuns_run hne hr hrest, List.flatMap_cons]
  rfl

/-- What replaces a word, and what stands behind one, starts with no
character of a word. -/
lemma head?_blankOutWords {words : List (List Char)} {cs : List Char}
    (h : ∀ c ∈ cs.head?, isWordChar c = false) :
    ∀ c ∈ (blankOutWords words cs).head?, isWordChar c = false := by
  induction cs using run_induction with
  | nil => exact h
  | run b run rest hne hr hrest ih =>
      obtain ⟨c, run, rfl⟩ := List.exists_cons_of_ne_nil hne
      rw [blankOutWords_run hne hr hrest]
      split
      · intro d hd
        obtain rfl : ' ' = d := by simpa using hd
        decide
      · exact h

/-- A gap is none of the words of a list. -/
lemma contains_gap_eq_false {words : List (List Char)}
    (hwords : ∀ w ∈ words, w ≠ [] ∧ IsWord w) {gap : List Char}
    (hne : gap ≠ []) (hgap : IsGap gap) : words.contains gap = false := by
  rw [Bool.eq_false_iff]
  intro hin
  obtain ⟨-, hw⟩ := hwords gap (List.contains_iff_mem.mp hin)
  obtain ⟨c, cs, rfl⟩ := List.exists_cons_of_ne_nil hne
  have := hw c List.mem_cons_self
  rw [hgap c List.mem_cons_self] at this
  cases this

/-- The words that do not give way are left. -/
theorem wordsIn_blankOutWords {words : List (List Char)}
    (hwords : ∀ w ∈ words, w ≠ [] ∧ IsWord w) (cs : List Char) :
    wordsIn (blankOutWords words cs)
      = (wordsIn cs).filter fun w => !words.contains w := by
  induction cs using run_induction with
  | nil => rfl
  | run b run rest hne hr hrest ih =>
      rw [blankOutWords_run hne hr hrest]
      cases b with
      | true =>
          have hclosed : closedWord run = [run] :=
            if_neg (by simpa using hne)
          rw [wordsIn_word_append hr hrest, hclosed, List.filter_append, ← ih]
          by_cases hin : words.contains run = true
          · rw [if_pos hin, List.filter_cons_of_neg (by simpa using hin)]
            exact wordsIn_cons (by decide) _
          · rw [if_neg hin, List.filter_cons_of_pos (by simpa using hin),
              wordsIn_word_append hr (head?_blankOutWords hrest), hclosed]
            rfl
      | false =>
          rw [contains_gap_eq_false hwords hne hr, if_neg (by decide),
            wordsIn_gap_append hr, wordsIn_gap_append hr, ih]

/-! ### Cuts -/

/-- The words before a character that belongs to none. -/
lemma wordsIn_before_subset (as : List Char) {c : Char}
    (hc : isWordChar c = false) (bs : List Char) :
    wordsIn as ⊆ wordsIn (as ++ c :: bs) := by
  rw [wordsIn_append_cons as hc]
  exact List.subset_append_left _ _

/-- The words behind a character that belongs to none. -/
lemma wordsIn_behind_subset (as : List Char) {c : Char}
    (hc : isWordChar c = false) (bs : List Char) :
    wordsIn bs ⊆ wordsIn (as ++ c :: bs) := by
  rw [wordsIn_append_cons as hc]
  exact List.subset_append_right _ _

/-- A text is cut at the first occurrence of a character, or has none. -/
lemma cut_at (c : Char) (cs : List Char) :
    (cs.takeWhile (· ≠ c) = cs ∧ cs.dropWhile (· ≠ c) = [])
      ∨ ∃ rest, cs.dropWhile (· ≠ c) = c :: rest
        ∧ cs = cs.takeWhile (· ≠ c) ++ c :: rest := by
  have hsplit := List.takeWhile_append_dropWhile
    (p := (decide <| · ≠ c)) (l := cs)
  cases hd : cs.dropWhile (decide <| · ≠ c) with
  | nil => exact .inl ⟨by rwa [hd, List.append_nil] at hsplit, rfl⟩
  | cons d rest =>
      have := List.head?_dropWhile_not (decide <| · ≠ c) cs
      rw [hd] at this
      obtain rfl : d = c := by simpa using this
      exact .inr ⟨rest, rfl, by rw [← hd, hsplit]⟩

lemma wordsIn_takeWhile_ne {c : Char} (hc : isWordChar c = false)
    (cs : List Char) : wordsIn (cs.takeWhile (· ≠ c)) ⊆ wordsIn cs := by
  rcases cut_at c cs with ⟨heq, -⟩ | ⟨rest, -, heq⟩
  · rw [heq]
    exact List.Subset.refl _
  · conv_rhs => rw [heq]
    exact wordsIn_before_subset _ hc rest

lemma wordsIn_tail_dropWhile_ne {c : Char} (hc : isWordChar c = false)
    (cs : List Char) : wordsIn (cs.dropWhile (· ≠ c)).tail ⊆ wordsIn cs := by
  rcases cut_at c cs with ⟨-, heq⟩ | ⟨rest, hd, heq⟩
  · rw [heq]
    exact List.nil_subset _
  · conv_rhs => rw [heq]
    rw [hd]
    exact wordsIn_behind_subset _ hc rest

/-- The words before the last occurrence of a character. -/
lemma wordsIn_dropEnd_ne {c : Char} (hc : isWordChar c = false)
    (cs : List Char) :
    wordsIn (cs.reverse.dropWhile (· ≠ c)).tail.reverse ⊆ wordsIn cs := by
  rcases cut_at c cs.reverse with ⟨-, heq⟩ | ⟨rest, hd, heq⟩
  · rw [heq]
    exact List.nil_subset _
  · have hcs := congrArg List.reverse heq
    rw [List.reverse_reverse, List.reverse_append, List.reverse_cons,
      List.append_assoc, List.singleton_append] at hcs
    rw [hd, List.tail_cons]
    conv_rhs => rw [hcs]
    exact wordsIn_before_subset _ hc _

/-! ### Pieces between commas -/

lemma splitAtDepth_ne_nil (openers closers : List Char) (depth : Int)
    (cs : List Char) : splitAtDepth openers closers depth cs ≠ [] := by
  fun_cases splitAtDepth openers closers depth cs <;>
    exact List.cons_ne_nil _ _

/-- The pieces and the commas between them make up the text. -/
lemma intercalate_splitAtDepth (openers closers : List Char) (depth : Int)
    (cs : List Char) :
    [','].intercalate (splitAtDepth openers closers depth cs) = cs := by
  fun_induction splitAtDepth openers closers depth cs with
  | case1 => rfl
  | case2 depth c cs after h ih =>
      rw [List.intercalate_cons_of_ne_nil (splitAtDepth_ne_nil _ _ _ _), ih,
        h.1]
      rfl
  | case3 depth c cs after h hnil =>
      exact absurd hnil (splitAtDepth_ne_nil _ _ _ _)
  | case4 depth c cs after h p ps hcons ih =>
      rw [← ih, hcons]
      cases ps <;> rfl

lemma wordsIn_intercalate (ps : List (List Char)) :
    wordsIn ([','].intercalate ps) = ps.flatMap wordsIn := by
  induction ps with
  | nil => rfl
  | cons p ps ih =>
      cases ps with
      | nil => rw [List.intercalate_singleton, List.flatMap_singleton]
      | cons q ps =>
          rw [List.intercalate_cons_cons, List.append_assoc,
            List.singleton_append, wordsIn_append_cons p (by decide), ih]
          exact List.flatMap_cons.symm

/-- The pieces are trimmed pieces between commas. -/
lemma exists_of_mem_topLevelParts {openers closers cs p : List Char}
    (hp : p ∈ topLevelParts openers closers cs) :
    ∃ q ∈ splitAtDepth openers closers 0 cs, p = trim q := by
  rcases List.mem_append.mp hp with hp | hp
  · obtain ⟨q, hq, rfl⟩ := List.mem_map.mp hp
    exact ⟨q, List.dropLast_subset _ hq, rfl⟩
  · split at hp
    · cases hp
    · obtain rfl := List.mem_singleton.mp hp
      refine ⟨_, List.getLast_mem (splitAtDepth_ne_nil _ _ _ _), ?_⟩
      rw [List.getLast?_eq_some_getLast (splitAtDepth_ne_nil _ _ _ _)]
      rfl

/-- The words of the pieces are those of the text. -/
lemma wordsIn_topLevelParts {openers closers cs p : List Char}
    (hp : p ∈ topLevelParts openers closers cs) :
    wordsIn p ⊆ wordsIn cs := by
  obtain ⟨q, hq, rfl⟩ := exists_of_mem_topLevelParts hp
  have hwords : (splitAtDepth openers closers 0 cs).flatMap wordsIn
      = wordsIn cs := by
    rw [← wordsIn_intercalate, intercalate_splitAtDepth]
  rw [wordsIn_trim, ← hwords]
  exact fun w hw => List.mem_flatMap.mpr ⟨q, hq, hw⟩

end HeaderBinding
