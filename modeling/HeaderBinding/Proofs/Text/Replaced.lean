/-
What replacing whole words does to a text.

* `replaceWord_gap_append`, `replaceWord_word_append`: it goes from run to
  run, and a word gives way if it is the one that is replaced;
* `Severed`: no word goes on from one text into the next;
  `replaceWord_append`, `replaceWords_append`: texts that are severed are
  replaced apart from each other;
* `replaceWords_eq_self_iff`: where all new words are shorter, a text stays
  as it is exactly if none of the old ones is in it.
-/
import Mathlib.Data.List.Basic
import HeaderBinding.Binding.EnumText
import HeaderBinding.Proofs.Text.Words

namespace HeaderBinding

/-! ### One word -/

section Word

variable {word new : List Char}

@[simp] lemma replaceWord_nil (word new : List Char) :
    replaceWord word new [] = [] := rfl

lemma isPrefixOf_gap_cons (hne : word ≠ []) (hw : IsWord word) {c : Char}
    (hc : isWordChar c = false) (cs : List Char) :
    word.isPrefixOf (c :: cs) = false := by
  obtain ⟨w, ws, rfl⟩ := List.exists_cons_of_ne_nil hne
  have hwc : w ≠ c := by
    rintro rfl
    exact absurd (hw w List.mem_cons_self) (by simp [hc])
  simp [List.isPrefixOf, hwc]

/-- What was read last matters only where a word goes on. -/
lemma replaceWordFrom_eq_replaceWord (hne : word ≠ []) (hw : IsWord word)
    {before : Option Char} {cs : List Char}
    (h : before.any isWordChar = true →
      ∀ c ∈ cs.head?, isWordChar c = false) :
    replaceWordFrom word new before 0 cs = replaceWord word new cs := by
  cases cs with
  | nil => rfl
  | cons c cs =>
      rw [replaceWord, replaceWordFrom, replaceWordFrom]
      by_cases hc : isWordChar c = true
      · have hbefore : before.any isWordChar = false := by
          by_contra hb
          exact absurd (h (by simpa using hb) c rfl) (by simp [hc])
        have hsame : wordBoundary before (some c)
            = wordBoundary none (some c) := by
          rw [wordBoundary, hbefore]
          rfl
        rw [hsame]
      · simp only [isPrefixOf_gap_cons hne hw (Bool.eq_false_iff.mpr hc),
          Bool.false_and, Bool.false_eq_true, if_false]

lemma replaceWordFrom_gap (hne : word ≠ []) (hw : IsWord word)
    {gap : List Char} (hg : IsGap gap) (before : Option Char)
    (rest : List Char) :
    replaceWordFrom word new before 0 (gap ++ rest)
      = gap ++ replaceWordFrom word new (gap.getLast?.or before) 0 rest := by
  induction gap generalizing before with
  | nil => rfl
  | cons c gap ih =>
      obtain ⟨hc, hgap⟩ := List.forall_mem_cons.mp hg
      rw [List.cons_append, replaceWordFrom,
        isPrefixOf_gap_cons hne hw hc, Bool.false_and, Bool.false_and,
        if_neg Bool.false_ne_true, ih hgap, List.getLast?_cons]
      cases gap.getLast? <;> rfl

/-- Inside a word no word begins. -/
lemma replaceWordFrom_inside {run : List Char} (hr : IsWord run) {c : Char}
    (hc : isWordChar c = true) (rest : List Char) :
    replaceWordFrom word new (some c) 0 (run ++ rest)
      = run ++ replaceWordFrom word new ((c :: run).getLast?) 0 rest := by
  induction run generalizing c with
  | nil => rfl
  | cons d run ih =>
      obtain ⟨hd, hrun⟩ := List.forall_mem_cons.mp hr
      have hno : wordBoundary (some c) (some d) = false := by
        simp [wordBoundary, hc, hd]
      rw [List.cons_append, replaceWordFrom, hno, Bool.and_false,
        Bool.false_and, if_neg Bool.false_ne_true, ih hrun hd,
        List.getLast?_cons_cons]
      rfl

lemma replaceWordFrom_skip (run : List Char) (before : Option Char)
    (rest : List Char) :
    replaceWordFrom word new before run.length (run ++ rest)
      = replaceWordFrom word new (run.getLast?.or before) 0 rest := by
  induction run generalizing before with
  | nil => rfl
  | cons c run ih =>
      rw [List.cons_append, List.length_cons, replaceWordFrom, ih,
        List.getLast?_cons]
      cases run.getLast? <;> rfl

/-- A word that ends where another one begins is not all of it. -/
lemma not_wordBoundary_of_prefix {run rest : List Char} (hw : IsWord word)
    (hr : IsWord run) (hrest : ∀ c ∈ rest.head?, isWordChar c = false)
    (hne : word ≠ []) (hno : run ≠ word) (hp : word <+: run ++ rest) :
    wordBoundary word.getLast? ((run ++ rest).drop word.length).head?
      = false := by
  have hlast : word.getLast?.any isWordChar = true := by
    rw [List.getLast?_eq_some_getLast hne]
    exact hw _ (List.getLast_mem hne)
  rcases List.prefix_or_prefix_of_prefix hp (List.prefix_append run rest)
    with ⟨more, rfl⟩ | ⟨more, rfl⟩
  · cases more with
    | nil => exact absurd (List.append_nil word) hno
    | cons d more =>
        have hd : isWordChar d = true := hr d (by simp)
        rw [wordBoundary, hlast, List.append_assoc, List.drop_left]
        simp [hd]
  · cases more with
    | nil => exact absurd (List.append_nil run).symm hno
    | cons d more =>
        -- the word would go on over the end of the run
        have hd : isWordChar d = true := hw d (by simp)
        obtain ⟨end', hend⟩ := hp
        rw [List.append_assoc, List.append_cancel_left_eq] at hend
        exact absurd (hrest d (by rw [← hend]; rfl)) (by simp [hd])

lemma replaceWordFrom_word (hne : word ≠ []) (hw : IsWord word)
    {run : List Char} (hrne : run ≠ []) (hr : IsWord run)
    {before : Option Char} (hb : before.any isWordChar = false)
    {rest : List Char} (hrest : ∀ c ∈ rest.head?, isWordChar c = false) :
    replaceWordFrom word new before 0 (run ++ rest)
      = (if run = word then new else run)
        ++ replaceWordFrom word new run.getLast? 0 rest := by
  obtain ⟨c, cs, rfl⟩ := List.exists_cons_of_ne_nil hrne
  obtain ⟨hc, hcs⟩ := List.forall_mem_cons.mp hr
  have hstart : wordBoundary before (some c) = true := by
    simp [wordBoundary, hb, hc]
  have hdrop : ∀ ds : List Char, (c :: ds).drop word.length
      = ds.drop (word.length - 1) := by
    intro ds
    obtain ⟨w, ws, rfl⟩ := List.exists_cons_of_ne_nil hne
    rfl
  rw [List.cons_append, replaceWordFrom, hstart, Bool.and_true]
  by_cases heq : c :: cs = word
  · have hlast : word.getLast?.any isWordChar = true := by
      rw [← heq, List.getLast?_eq_some_getLast hrne]
      exact hr _ (List.getLast_mem hrne)
    have hend : wordBoundary word.getLast?
        ((cs ++ rest).drop (word.length - 1)).head? = true := by
      rw [wordBoundary, hlast, ← heq, List.length_cons, Nat.add_sub_cancel,
        List.drop_left]
      cases rest with
      | nil => rfl
      | cons d rest => simp [hrest d rfl]
    have hp : word.isPrefixOf (c :: (cs ++ rest)) = true := by
      rw [List.isPrefixOf_iff_prefix, ← heq]
      exact List.prefix_append (c :: cs) rest
    rw [hp, hend, if_pos (by decide), if_pos heq, ← heq, List.length_cons,
      Nat.add_sub_cancel, replaceWordFrom_skip, List.getLast?_cons]
    cases cs.getLast? <;> rfl
  · have hno : (word.isPrefixOf (c :: (cs ++ rest)) && wordBoundary
        word.getLast? ((cs ++ rest).drop (word.length - 1)).head?)
        = false := by
      by_cases hp : word <+: c :: cs ++ rest
      · rw [← hdrop, ← List.cons_append,
          not_wordBoundary_of_prefix hw hr hrest hne heq hp, Bool.and_false]
      · rw [Bool.and_eq_false_iff]
        exact .inl (Bool.eq_false_iff.mpr
          fun h => hp (List.isPrefixOf_iff_prefix.mp h))
    rw [hno, if_neg Bool.false_ne_true, if_neg heq,
      replaceWordFrom_inside hcs hc]
    rfl

variable (hne : word ≠ []) (hw : IsWord word)
include hne hw

/-- Replacing passes over what belongs to no word. -/
theorem replaceWord_gap_append {gap : List Char} (hg : IsGap gap)
    (rest : List Char) :
    replaceWord word new (gap ++ rest)
      = gap ++ replaceWord word new rest := by
  rw [replaceWord, replaceWordFrom_gap hne hw hg,
    replaceWordFrom_eq_replaceWord hne hw]
  intro hlast
  rw [Option.or_none] at hlast
  obtain ⟨c, hc, hword⟩ := (Option.any_eq_true _ _).mp hlast
  exact absurd hword (by simp [hg c (List.mem_of_mem_getLast? hc)])

/-- A word gives way if it is the one that is replaced. -/
theorem replaceWord_word_append {run : List Char} (hrne : run ≠ [])
    (hr : IsWord run) {rest : List Char}
    (hrest : ∀ c ∈ rest.head?, isWordChar c = false) :
    replaceWord word new (run ++ rest)
      = (if run = word then new else run) ++ replaceWord word new rest := by
  rw [replaceWord, replaceWordFrom_word hne hw hrne hr rfl hrest,
    replaceWordFrom_eq_replaceWord hne hw fun _ => hrest]

lemma replaceWord_gap {gap : List Char} (hg : IsGap gap) :
    replaceWord word new gap = gap := by
  have : replaceWord word new (gap ++ []) = _ :=
    replaceWord_gap_append hne hw hg []
  rwa [List.append_nil, replaceWord_nil, List.append_nil] at this

lemma replaceWord_word {run : List Char} (hrne : run ≠ [])
    (hr : IsWord run) :
    replaceWord word new run = if run = word then new else run := by
  have : replaceWord word new (run ++ []) = _ :=
    replaceWord_word_append hne hw hrne hr fun c hc => nomatch hc
  rwa [List.append_nil, replaceWord_nil, List.append_nil] at this

/-- A text without the word stays as it is. -/
lemma replaceWord_of_not_mem {cs : List Char} (h : word ∉ wordsIn cs) :
    replaceWord word new cs = cs := by
  induction cs using run_induction with
  | nil => rfl
  | run b run rest hrun hu hrest ih =>
      cases b with
      | false =>
          rw [wordsIn_gap_append hu] at h
          rw [replaceWord_gap_append hne hw hu, ih h]
      | true =>
          rw [wordsIn_word_append hu hrest, closedWord,
            if_neg (by simpa using hrun), List.singleton_append,
            List.mem_cons, not_or] at h
          rw [replaceWord_word_append hne hw hrun hu hrest,
            if_neg (Ne.symm h.1), ih h.2]

/-- A shorter word makes no text longer, and one that it is put into
shorter. -/
lemma length_replaceWord (hlt : new.length < word.length)
    (cs : List Char) :
    (replaceWord word new cs).length ≤ cs.length
      ∧ (word ∈ wordsIn cs →
        (replaceWord word new cs).length < cs.length) := by
  induction cs using run_induction with
  | nil => exact ⟨Nat.le_refl _, fun h => nomatch h⟩
  | run b run rest hrun hu hrest ih =>
      cases b with
      | false =>
          rw [wordsIn_gap_append hu, replaceWord_gap_append hne hw hu,
            List.length_append, List.length_append]
          exact ⟨Nat.add_le_add_left ih.1 _,
            fun h => Nat.add_lt_add_left (ih.2 h) _⟩
      | true =>
          rw [wordsIn_word_append hu hrest, closedWord,
            if_neg (by simpa using hrun), List.singleton_append,
            replaceWord_word_append hne hw hrun hu hrest,
            List.length_append, List.length_append, List.mem_cons]
          by_cases heq : run = word
          · rw [if_pos heq, heq]
            exact ⟨Nat.add_le_add hlt.le ih.1,
              fun _ => Nat.add_lt_add_of_lt_of_le hlt ih.1⟩
          · rw [if_neg heq]
            exact ⟨Nat.add_le_add_left ih.1 _, fun h =>
              Nat.add_lt_add_left (ih.2 (h.resolve_left (Ne.symm heq))) _⟩

end Word

/-! ### Texts that are severed -/

/-- No word goes on from one text into the next. -/
def Severed (as bs : List Char) : Prop :=
  ∀ a ∈ as.getLast?, ∀ b ∈ bs.head?,
    isWordChar a = true → isWordChar b = false

/-- The text begins and ends with a word. -/
def WordEnds (cs : List Char) : Prop :=
  cs.head?.map isWordChar = some true
    ∧ cs.getLast?.map isWordChar = some true

instance (cs : List Char) : Decidable (WordEnds cs) :=
  inferInstanceAs (Decidable (_ ∧ _))

lemma IsWord.wordEnds {w : List Char} (hne : w ≠ []) (h : IsWord w) :
    WordEnds w := by
  obtain ⟨c, cs, rfl⟩ := List.exists_cons_of_ne_nil hne
  refine ⟨congrArg some (h c List.mem_cons_self), ?_⟩
  rw [List.getLast?_eq_some_getLast hne]
  exact congrArg some (h _ (List.getLast_mem hne))

section Ends

variable {word new : List Char}

/-- Texts that are severed are replaced apart from each other. -/
theorem replaceWord_append (hne : word ≠ []) (hw : IsWord word)
    {as bs : List Char} (h : Severed as bs) :
    replaceWord word new (as ++ bs)
      = replaceWord word new as ++ replaceWord word new bs := by
  induction as using run_induction with
  | nil => rfl
  | run b run rest hrun hu hrest ih =>
      have hlast : rest = [] → ∀ c ∈ run.getLast?, ∀ d ∈ bs.head?,
          isWordChar c = true → isWordChar d = false := by
        rintro rfl
        rwa [List.append_nil] at h
      have hmore : rest ≠ [] → Severed rest bs := by
        intro hnil
        rwa [Severed, List.getLast?_append_of_ne_nil _ hnil] at h
      have ih : replaceWord word new (rest ++ bs)
          = replaceWord word new rest ++ replaceWord word new bs := by
        by_cases hnil : rest = []
        · rw [hnil]
          rfl
        · exact ih (hmore hnil)
      rw [List.append_assoc]
      cases b with
      | false =>
          rw [replaceWord_gap_append hne hw hu,
            replaceWord_gap_append hne hw hu, ih, List.append_assoc]
      | true =>
          have hbehind : ∀ c ∈ (rest ++ bs).head?, isWordChar c = false := by
            by_cases hnil : rest = []
            · subst hnil
              intro d hd
              exact hlast rfl _ (List.getLast?_eq_some_getLast hrun) d hd
                (hu _ (List.getLast_mem hrun))
            · rwa [List.head?_append_of_ne_nil _ hnil]
          rw [replaceWord_word_append hne hw hrun hu hbehind,
            replaceWord_word_append hne hw hrun hu hrest, ih,
            List.append_assoc]

/-- A text begins and ends with a word where it did so before. -/
lemma ends_replaceWord (hne : word ≠ []) (hw : IsWord word)
    (hnew : WordEnds new) (cs : List Char) :
    (replaceWord word new cs).head?.map isWordChar = cs.head?.map isWordChar
      ∧ (replaceWord word new cs).getLast?.map isWordChar
        = cs.getLast?.map isWordChar := by
  induction cs using run_induction with
  | nil => exact ⟨rfl, rfl⟩
  | run b run rest hrun hu hrest ih =>
      -- what the run gives way to begins and ends as the run does
      obtain ⟨run', hnil, hhead, hlast, heq⟩ : ∃ run', run' ≠ []
          ∧ run'.head?.map isWordChar = run.head?.map isWordChar
          ∧ run'.getLast?.map isWordChar = run.getLast?.map isWordChar
          ∧ replaceWord word new (run ++ rest)
            = run' ++ replaceWord word new rest := by
        cases b with
        | false =>
            exact ⟨run, hrun, rfl, rfl, replaceWord_gap_append hne hw hu rest⟩
        | true =>
            refine ⟨_, ?_, ?_, ?_,
              replaceWord_word_append hne hw hrun hu hrest⟩ <;> split
            · rintro rfl
              exact absurd hnew.1 (by simp)
            · exact hrun
            · exact hnew.1.trans (IsWord.wordEnds hrun hu).1.symm
            · rfl
            · exact hnew.2.trans (IsWord.wordEnds hrun hu).2.symm
            · rfl
      rw [heq, List.head?_append_of_ne_nil _ hnil,
        List.head?_append_of_ne_nil _ hrun]
      refine ⟨hhead, ?_⟩
      by_cases hrnil : rest = []
      · rw [hrnil, replaceWord_nil, List.append_nil, List.append_nil, hlast]
      · have hrnil' : replaceWord word new rest ≠ [] := by
          intro hempty
          obtain ⟨r, rs, rfl⟩ := List.exists_cons_of_ne_nil hrnil
          rw [hempty] at ih
          exact absurd ih.1 (by simp)
        rw [List.getLast?_append_of_ne_nil _ hrnil',
          List.getLast?_append_of_ne_nil _ hrnil, ih.2]

end Ends

/-! ### Many words -/

/-- Each old name is a word, and each new text begins and ends with one. -/
def Renaming (rs : List (String × String)) : Prop :=
  ∀ r ∈ rs, r.1.toList ≠ [] ∧ IsWord r.1.toList ∧ WordEnds r.2.toList

lemma replaceWords_cons (r : String × String) (rs : List (String × String))
    (cs : List Char) :
    replaceWords (r :: rs) cs
      = replaceWords rs (replaceWord r.1.toList r.2.toList cs) := rfl

lemma replaceWords_append_left (rs ss : List (String × String))
    (cs : List Char) :
    replaceWords (rs ++ ss) cs = replaceWords ss (replaceWords rs cs) :=
  List.foldl_append

/-- Texts that are severed are replaced apart from each other. -/
theorem replaceWords_append {rs : List (String × String)} (hr : Renaming rs)
    {as bs : List Char} (h : Severed as bs) :
    replaceWords rs (as ++ bs) = replaceWords rs as ++ replaceWords rs bs := by
  induction rs generalizing as bs with
  | nil => rfl
  | cons r rs ih =>
      obtain ⟨⟨hne, hw, hnew⟩, hrs⟩ := List.forall_mem_cons.mp hr
      have has := (ends_replaceWord hne hw hnew as).2
      have hbs := (ends_replaceWord hne hw hnew bs).1
      have hsevered : Severed (replaceWord r.1.toList r.2.toList as)
          (replaceWord r.1.toList r.2.toList bs) := by
        intro a ha b hb hword
        rw [Option.mem_def.mp ha, Option.map_some, hword] at has
        rw [Option.mem_def.mp hb, Option.map_some] at hbs
        obtain ⟨c, hc, hcword⟩ := Option.map_eq_some_iff.mp has.symm
        obtain ⟨d, hd, hdword⟩ := Option.map_eq_some_iff.mp hbs.symm
        exact hdword.symm.trans (h c hc d hd hcword)
      rw [replaceWords_cons, replaceWord_append hne hw h, ih hrs hsevered]
      rfl

lemma replaceWords_gap {rs : List (String × String)} (hr : Renaming rs)
    {gap : List Char} (hg : IsGap gap) : replaceWords rs gap = gap := by
  induction rs with
  | nil => rfl
  | cons r rs ih =>
      obtain ⟨⟨hne, hw, -⟩, hrs⟩ := List.forall_mem_cons.mp hr
      rw [replaceWords_cons, replaceWord_gap hne hw hg, ih hrs]

/-- A text with none of the old words stays as it is. -/
lemma replaceWords_of_not_mem {rs : List (String × String)}
    (hr : Renaming rs) {cs : List Char}
    (h : ∀ r ∈ rs, r.1.toList ∉ wordsIn cs) : replaceWords rs cs = cs := by
  induction rs with
  | nil => rfl
  | cons r rs ih =>
      obtain ⟨⟨hne, hw, -⟩, hrs⟩ := List.forall_mem_cons.mp hr
      obtain ⟨hno, hnone⟩ := List.forall_mem_cons.mp h
      rw [replaceWords_cons, replaceWord_of_not_mem hne hw hno, ih hrs hnone]

/-- New words that are shorter make no text longer. -/
lemma length_replaceWords_le {rs : List (String × String)}
    (hr : Renaming rs)
    (hlt : ∀ r ∈ rs, r.2.toList.length < r.1.toList.length)
    (cs : List Char) : (replaceWords rs cs).length ≤ cs.length := by
  induction rs generalizing cs with
  | nil => exact Nat.le_refl _
  | cons r rs ih =>
      obtain ⟨⟨hne, hw, -⟩, hrs⟩ := List.forall_mem_cons.mp hr
      obtain ⟨hlt, hlts⟩ := List.forall_mem_cons.mp hlt
      exact (ih hrs hlts _).trans (length_replaceWord hne hw hlt cs).1

/-- **What is left alone.**  Where all new words are shorter, a text stays as
it is exactly if none of the old words is in it. -/
theorem replaceWords_eq_self_iff {rs : List (String × String)}
    (hr : Renaming rs)
    (hlt : ∀ r ∈ rs, r.2.toList.length < r.1.toList.length)
    {cs : List Char} :
    replaceWords rs cs = cs ↔ ∀ r ∈ rs, r.1.toList ∉ wordsIn cs := by
  refine ⟨fun h => ?_, replaceWords_of_not_mem hr⟩
  induction rs with
  | nil => exact fun r hr => nomatch hr
  | cons r rs ih =>
      obtain ⟨⟨hne, hw, -⟩, hrs⟩ := List.forall_mem_cons.mp hr
      obtain ⟨hlt, hlts⟩ := List.forall_mem_cons.mp hlt
      have hno : r.1.toList ∉ wordsIn cs := by
        intro hmem
        have hshort := (length_replaceWord hne hw hlt cs).2 hmem
        have hle := length_replaceWords_le hrs hlts
          (replaceWord r.1.toList r.2.toList cs)
        rw [← replaceWords_cons, h] at hle
        omega
      rw [replaceWords_cons, replaceWord_of_not_mem hne hw hno] at h
      exact List.forall_mem_cons.mpr ⟨hno, ih hrs hlts h⟩

end HeaderBinding
