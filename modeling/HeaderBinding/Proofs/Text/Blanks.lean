/-
Blanks in a text: where words give way to them, and where they are
squeezed.

* `blankOutWords_append_cons`, `blankSeparated_append_cons`: what does not
  belong to words, and a blank, part a text into two that are treated
  apart;
* `Tidy`: a text as squeezing leaves it; `tidy_squeeze`, `squeeze_of_tidy`:
  just these stay as they are;
* `exists_trim`, `trim_of_tidy`: what trimming takes off, and where that is
  nothing.
-/
import HeaderBinding.Proofs.Text.Words

namespace HeaderBinding

/-! ### Blanking out -/

section BlankOut

variable {words : List (List Char)}

/-- A gap in front stays as it is. -/
lemma blankOutWords_gap_append (hwords : ∀ w ∈ words, w ≠ [] ∧ IsWord w)
    {gap : List Char} (hgap : IsGap gap) (cs : List Char) :
    blankOutWords words (gap ++ cs) = gap ++ blankOutWords words cs := by
  rcases eq_or_ne gap [] with rfl | hne
  · rfl
  have hin := contains_gap_eq_false hwords hne hgap
  induction cs using run_induction with
  | nil =>
      rw [blankOutWords_run hne hgap (by simp), hin]
      rfl
  | run b run rest hrun hu hrest ih =>
      cases b with
      | true =>
          -- the gap is a run of its own in front of a word
          have hhead : ∀ c ∈ (run ++ rest).head?, isWordChar c = true := by
            obtain ⟨d, run, rfl⟩ := List.exists_cons_of_ne_nil hrun
            intro c hc
            obtain rfl : d = c := by simpa using hc
            exact hu d List.mem_cons_self
          rw [blankOutWords_run hne hgap hhead, hin]
          rfl
      | false =>
          have hboth : IsGap (gap ++ run) :=
            List.forall_mem_append.mpr ⟨hgap, hu⟩
          have hnil : gap ++ run ≠ [] := by simp [hne]
          rw [← List.append_assoc, blankOutWords_run hnil hboth hrest,
            blankOutWords_run hrun hu hrest,
            contains_gap_eq_false hwords hnil hboth,
            contains_gap_eq_false hwords hrun hu]
          simp

/-- What stands before a character of no word is blanked out by itself. -/
lemma blankOutWords_append_cons (hwords : ∀ w ∈ words, w ≠ [] ∧ IsWord w)
    (as : List Char) {c : Char} (hc : isWordChar c = false)
    (bs : List Char) :
    blankOutWords words (as ++ c :: bs)
      = blankOutWords words as ++ c :: blankOutWords words bs := by
  induction as using run_induction with
  | nil =>
      have hgap : IsGap [c] := by simpa [IsGap]
      exact blankOutWords_gap_append hwords hgap bs
  | run b run rest hne hu hrest ih =>
      rw [List.append_assoc]
      cases b with
      | false =>
          rw [blankOutWords_gap_append hwords hu, ih,
            blankOutWords_gap_append hwords hu, List.append_assoc]
      | true =>
          have hhead : ∀ d ∈ (rest ++ c :: bs).head?,
              isWordChar d = false := by
            cases rest with
            | nil => simpa using hc
            | cons e rest => simpa using hrest
          rw [blankOutWords_run hne hu hhead, ih,
            blankOutWords_run hne hu hrest, List.append_assoc]

/-- A word of the list gives way. -/
lemma blankOutWords_word (hwords : ∀ w ∈ words, w ≠ [] ∧ IsWord w)
    {w : List Char} (hw : w ∈ words) : blankOutWords words w = [' '] := by
  obtain ⟨hne, hword⟩ := hwords w hw
  have hrun := blankOutWords_run hne hword
    (fun _ (hc : _ ∈ [].head?) => nomatch hc) words
  rw [List.append_nil, if_pos (List.contains_iff_mem.mpr hw)] at hrun
  exact hrun

/-- A text without these words stays as it is. -/
lemma blankOutWords_eq (hwords : ∀ w ∈ words, w ≠ [] ∧ IsWord w) {cs : List Char}
    (h : ∀ w ∈ wordsIn cs, w ∉ words) : blankOutWords words cs = cs := by
  induction cs using run_induction with
  | nil => rfl
  | run b run rest hne hr hrest ih =>
      have hin : ¬ words.contains run = true := by
        cases b with
        | true =>
            refine fun hin => h run ?_ (List.contains_iff_mem.mp hin)
            rw [wordsIn_word_append hr hrest, closedWord,
              if_neg (by simpa using hne)]
            exact List.mem_cons_self
        | false =>
            exact Bool.eq_false_iff.mp (contains_gap_eq_false hwords hne hr)
      have hrestwords : ∀ w ∈ wordsIn rest, w ∉ words := by
        intro w hw
        refine h w ?_
        cases b with
        | true =>
            rw [wordsIn_word_append hr hrest]
            exact List.mem_append_right _ hw
        | false =>
            rw [wordsIn_gap_append hr]
            exact hw
      rw [blankOutWords_run hne hr hrest, if_neg hin, ih hrestwords]

end BlankOut

/-! ### Squeezing -/

lemma blankSeparated_cons_blank {c : Char} (hc : isBlank c = true)
    (cs : List Char) : blankSeparated (c :: cs) = blankSeparated cs := by
  rw [blankSeparated.eq_def]
  simp only [hc, if_true]

/-- A blank parts the pieces. -/
lemma blankSeparated_append_cons (as : List Char) {c : Char}
    (hc : isBlank c = true) (bs : List Char) :
    blankSeparated (as ++ c :: bs)
      = blankSeparated as ++ blankSeparated bs := by
  fun_induction blankSeparated as with
  | case1 => exact blankSeparated_cons_blank hc bs
  | case2 a as ha ih =>
      rw [List.cons_append, blankSeparated_cons_blank ha, ih]
  | case3 a ha =>
      rw [List.cons_append, List.nil_append, blankSeparated.eq_def]
      simp only [Bool.eq_false_iff.mpr ha, hc, blankSeparated_cons_blank hc,
        Bool.false_eq_true, if_false, if_true, List.singleton_append]
  | case4 a ha d as hd ih =>
      rw [List.cons_append, List.cons_append, blankSeparated.eq_def]
      rw [List.cons_append] at ih
      simp only [Bool.eq_false_iff.mpr ha, hd, ih, Bool.false_eq_true,
        if_false, if_true, List.cons_append]
  | case5 a ha d as hd hnil ih =>
      obtain ⟨w, ws, hw⟩ :=
        exists_blankSeparated (Bool.eq_false_iff.mpr hd) as
      rw [hw] at hnil
      cases hnil
  | case6 a ha d as hd w ws hcons ih =>
      rw [List.cons_append, List.cons_append, blankSeparated.eq_def]
      rw [List.cons_append, hcons] at ih
      simp only [Bool.eq_false_iff.mpr ha, Bool.eq_false_iff.mpr hd, ih,
        hcons, Bool.false_eq_true, if_false, List.cons_append]

/-- Blanks in front do not matter. -/
lemma squeeze_blanks_append {gap : List Char}
    (h : ∀ c ∈ gap, isBlank c = true) (cs : List Char) :
    squeeze (gap ++ cs) = squeeze cs := by
  induction gap with
  | nil => rfl
  | cons c gap ih =>
      obtain ⟨hc, hg⟩ := List.forall_mem_cons.mp h
      rw [List.cons_append, squeeze_blank hc, ih hg]

/-- Nor do they at the end. -/
lemma squeeze_append_blanks (cs : List Char) {gap : List Char}
    (h : ∀ c ∈ gap, isBlank c = true) :
    squeeze (cs ++ gap) = squeeze cs := by
  cases gap with
  | nil => rw [List.append_nil]
  | cons c gap =>
      obtain ⟨hc, hg⟩ := List.forall_mem_cons.mp h
      have hnil : blankSeparated gap = [] := by
        have : ∀ g : List Char, (∀ c ∈ g, isBlank c = true) →
            blankSeparated g = [] := by
          intro g hg
          induction g with
          | nil => rfl
          | cons d g ih =>
              obtain ⟨hd, hg⟩ := List.forall_mem_cons.mp hg
              rw [blankSeparated_cons_blank hd, ih hg]
        exact this gap hg
      rw [squeeze, blankSeparated_append_cons cs hc, hnil, List.append_nil,
        squeeze]

/-- What stands before a character that is no blank is squeezed by itself,
up to a space. -/
lemma exists_squeeze_append {c : Char} (hc : isBlank c = false)
    (as bs : List Char) :
    ∃ gap, (∀ d ∈ gap, isBlank d = true)
      ∧ squeeze (as ++ c :: bs) = squeeze as ++ (gap ++ squeeze (c :: bs)) := by
  induction as with
  | nil => exact ⟨[], by simp, rfl⟩
  | cons a as ih =>
      by_cases ha : isBlank a = true
      · rw [List.cons_append, squeeze_blank ha, squeeze_blank ha]
        exact ih
      rw [Bool.not_eq_true] at ha
      cases as with
      | nil =>
          refine ⟨[], by simp, ?_⟩
          rw [squeeze_single ha]
          exact squeeze_cons ha hc bs
      | cons d as =>
          obtain ⟨gap, hgap, heq⟩ := ih
          rw [List.cons_append] at heq
          by_cases hd : isBlank d = true
          · have hne : squeeze (c :: bs) ≠ [] := by
              obtain ⟨w, ws, hw⟩ := exists_blankSeparated hc bs
              rw [squeeze, hw]
              cases ws <;> simp
            rw [squeeze_blank hd, squeeze_blank hd] at heq
            rw [List.cons_append, List.cons_append, squeeze_cons_blank ha hd,
              squeeze_cons_blank ha hd, heq, if_neg (by simp [hne])]
            split
            · rename_i hnil
              exact ⟨' ' :: gap,
                List.forall_mem_cons.mpr ⟨by decide, hgap⟩, by rw [hnil]; rfl⟩
            · exact ⟨gap, hgap, rfl⟩
          · rw [Bool.not_eq_true] at hd
            rw [List.cons_append, List.cons_append, squeeze_cons ha hd,
              squeeze_cons ha hd, heq]
            exact ⟨gap, hgap, rfl⟩

/-- A piece in front of more stays as it is, and so does what follows, up to
a space. -/
lemma exists_squeeze_solid {w : List Char} (hne : w ≠ [])
    (hw : ∀ c ∈ w, isBlank c = false) (cs : List Char) :
    ∃ gap, (∀ d ∈ gap, isBlank d = true)
      ∧ squeeze (w ++ cs) = w ++ (gap ++ squeeze cs) := by
  induction w with
  | nil => exact absurd rfl hne
  | cons c w ih =>
      obtain ⟨hc, hrest⟩ := List.forall_mem_cons.mp hw
      cases w with
      | nil =>
          cases cs with
          | nil => exact ⟨[], by simp, squeeze_single hc⟩
          | cons d cs =>
              by_cases hd : isBlank d = true
              · rw [List.singleton_append, squeeze_cons_blank hc hd,
                  squeeze_blank hd]
                split
                · rename_i hnil
                  exact ⟨[], by simp, by rw [hnil]; rfl⟩
                · exact ⟨[' '], by simp [isBlank], rfl⟩
              · rw [Bool.not_eq_true] at hd
                exact ⟨[], by simp, squeeze_cons hc hd cs⟩
      | cons d w =>
          obtain ⟨gap, hgap, heq⟩ := ih (List.cons_ne_nil d w) hrest
          refine ⟨gap, hgap, ?_⟩
          rw [List.cons_append, List.cons_append, squeeze_cons hc
            (hrest d List.mem_cons_self)]
          exact congrArg (c :: ·) heq

/-! ### Tidy texts -/

/-- A text as squeezing leaves it: only spaces for blanks, one at a time
and none at the ends. -/
structure Tidy (cs : List Char) : Prop where
  spaces : ∀ c ∈ cs, isBlank c = true → c = ' '
  apart : cs.IsChain fun a b => isBlank a = false ∨ isBlank b = false
  head : ∀ c ∈ cs.head?, isBlank c = false
  last : ∀ c ∈ cs.getLast?, isBlank c = false

lemma tidy_nil : Tidy [] where
  spaces := by simp
  apart := .nil
  head := by simp
  last := by simp

lemma Tidy.cons {c : Char} (hc : isBlank c = false) {cs : List Char}
    (h : Tidy cs) : Tidy (c :: cs) where
  spaces := List.forall_mem_cons.mpr
    ⟨fun hblank => absurd hblank (by simp [hc]), h.spaces⟩
  apart := List.isChain_cons.mpr ⟨fun _ _ => .inl hc, h.apart⟩
  head := fun _ hd => Option.some.inj hd ▸ hc
  last := by
    cases cs with
    | nil => exact fun _ hd => Option.some.inj hd ▸ hc
    | cons d cs => exact h.last

lemma Tidy.cons_space {c : Char} (hc : isBlank c = false) {cs : List Char}
    (hne : cs ≠ []) (h : Tidy cs) : Tidy (c :: ' ' :: cs) where
  spaces := List.forall_mem_cons.mpr
    ⟨fun hblank => absurd hblank (by simp [hc]),
      List.forall_mem_cons.mpr ⟨fun _ => rfl, h.spaces⟩⟩
  apart := List.isChain_cons.mpr ⟨fun _ _ => .inl hc,
    List.isChain_cons.mpr ⟨fun d hd => .inr (h.head d hd), h.apart⟩⟩
  head := fun _ hd => Option.some.inj hd ▸ hc
  last := by
    obtain ⟨d, cs, rfl⟩ := List.exists_cons_of_ne_nil hne
    exact h.last

theorem tidy_squeeze (cs : List Char) : Tidy (squeeze cs) := by
  induction cs with
  | nil => exact tidy_nil
  | cons c cs ih =>
      by_cases hc : isBlank c = true
      · rwa [squeeze_blank hc]
      rw [Bool.not_eq_true] at hc
      cases cs with
      | nil =>
          rw [squeeze_single hc]
          exact tidy_nil.cons hc
      | cons d cs =>
          by_cases hd : isBlank d = true
          · rw [squeeze_blank hd] at ih
            rw [squeeze_cons_blank hc hd]
            split
            · exact tidy_nil.cons hc
            · rename_i hne
              exact ih.cons_space hc hne
          · rw [Bool.not_eq_true] at hd
            rw [squeeze_cons hc hd]
            exact ih.cons hc

lemma Tidy.tail {c d : Char} {cs : List Char} (hd : isBlank d = false)
    (h : Tidy (c :: d :: cs)) : Tidy (d :: cs) where
  spaces := (List.forall_mem_cons.mp h.spaces).2
  apart := (List.isChain_cons.mp h.apart).2
  head := fun _ he => Option.some.inj he ▸ hd
  last := h.last

/-- Behind a space a tidy text is tidy. -/
lemma Tidy.behind_space {as bs : List Char} (h : Tidy (as ++ ' ' :: bs)) :
    Tidy bs where
  spaces := fun c hc => h.spaces c (by simp [hc])
  apart := (List.isChain_cons.mp h.apart.right_of_append).2
  head := fun c hc =>
    ((List.isChain_cons.mp h.apart.right_of_append).1 c hc).resolve_left
      (by decide)
  last := fun c hc => h.last c (by
    rw [List.getLast?_append]
    cases bs with
    | nil => cases hc
    | cons b bs => rw [List.getLast?_cons_cons, hc]; rfl)

/-- What a tidy text begins with is tidy if it ends in no blank. -/
lemma Tidy.of_append {as bs : List Char} (h : Tidy (as ++ bs))
    (hlast : ∀ c ∈ as.getLast?, isBlank c = false) : Tidy as where
  spaces := fun c hc => h.spaces c (List.mem_append_left _ hc)
  apart := h.apart.left_of_append
  head := fun c hc => h.head c (by
    cases as with
    | nil => cases hc
    | cons a as => exact hc)
  last := hlast

/-- Squeezing leaves a tidy text as it is. -/
theorem squeeze_of_tidy {cs : List Char} (h : Tidy cs) :
    squeeze cs = cs := by
  induction hn : cs.length using Nat.strong_induction_on generalizing cs with
  | _ n ih =>
      match cs, h with
      | [], _ => rfl
      | [c], h => exact squeeze_single (h.head c rfl)
      | c :: d :: cs, h =>
          have hc := h.head c rfl
          simp only [List.length_cons] at hn
          by_cases hd : isBlank d = true
          · obtain rfl := h.spaces d (by simp) hd
            have htail : Tidy cs := Tidy.behind_space (show
              Tidy ([c] ++ ' ' :: cs) from h)
            have hne : cs ≠ [] := by
              rintro rfl
              exact absurd (h.last ' ' rfl) (by decide)
            rw [squeeze_cons_blank hc hd, ih _ (by omega) htail rfl,
              if_neg hne]
          · rw [Bool.not_eq_true] at hd
            rw [squeeze_cons hc hd, ih _ (by simp; omega) (h.tail hd) rfl]

/-! ### Trimming -/

/-- Trimming takes off blanks. -/
lemma exists_trim (cs : List Char) :
    ∃ front back, cs = front ++ trim cs ++ back
      ∧ (∀ c ∈ front, isBlank c = true) ∧ ∀ c ∈ back, isBlank c = true := by
  obtain ⟨front, hf, hfront⟩ := exists_append_dropWhile isBlank cs
  obtain ⟨back, hb, hback⟩ := exists_dropEnd_append isBlank (trimLeft cs)
  refine ⟨front, back, ?_, hfront, hback⟩
  rw [trim, trimRight, List.append_assoc, ← hb]
  exact hf

/-- A text with no blank at either end stays as it is. -/
lemma trim_eq {cs : List Char} (hhead : ∀ c ∈ cs.head?, isBlank c = false)
    (hlast : ∀ c ∈ cs.reverse.head?, isBlank c = false) : trim cs = cs := by
  have hdrop : ∀ ds : List Char, (∀ c ∈ ds.head?, isBlank c = false) →
      ds.dropWhile isBlank = ds := by
    intro ds hds
    cases ds with
    | nil => rfl
    | cons d ds =>
        exact List.dropWhile_cons_of_neg (by simp [hds d rfl])
  rw [trim, trimLeft, hdrop cs hhead, trimRight, hdrop _ hlast,
    List.reverse_reverse]

/-- Blanks behind a text are taken off. -/
lemma trim_append_blanks (cs : List Char) {gap : List Char}
    (hgap : ∀ c ∈ gap, isBlank c = true) : trim (cs ++ gap) = trim cs := by
  have hright : ∀ as : List Char, trimRight (as ++ gap) = trimRight as := by
    intro as
    rw [trimRight, List.reverse_append, List.dropWhile_append_of_pos
      fun c hc => hgap c (List.mem_reverse.mp hc), trimRight]
  rw [trim, trimLeft, List.dropWhile_append]
  split
  · rename_i hnil
    have hgapnil : gap.dropWhile isBlank = [] :=
      List.dropWhile_eq_nil_iff.mpr hgap
    rw [hgapnil, trim, trimLeft, List.isEmpty_iff.mp hnil]
  · exact hright _

lemma trim_of_tidy {cs : List Char} (h : Tidy cs) : trim cs = cs :=
  trim_eq h.head fun c hc => h.last c (List.head?_reverse ▸ hc)

end HeaderBinding
