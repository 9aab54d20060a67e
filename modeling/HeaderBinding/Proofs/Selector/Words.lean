/-
The words of a name in mixed case, and where they stand.

* `camelWords_cons`: what is read at the start of a text: a character that
  belongs to no word, or a word; `camelWords_induction` is the induction
  that follows it;
* `flatten_camelWords`: no letter and no digit is lost;
* `camelWords_append`: a capital with a small letter behind it starts a
  word, so that what stands before it is read apart;
* `exists_of_camelWords_eq`: the place of a word in the text.
-/
import Mathlib.Data.List.TakeWhile
import HeaderBinding.Proofs.Text.Ascii
import HeaderBinding.Selector.CamelWord

namespace HeaderBinding

variable {c : Char} {cs rest w : List Char} {ws ws' : List (List Char)}

/-! ### The word at the start -/

lemma isAlphanum_eq (c : Char) :
    c.isAlphanum = (c.isUpper || isCamelTail c) :=
  Bool.or_assoc _ _ _

/-- No capital is a small letter or a digit. -/
lemma isCamelTail_eq_false_of_isUpper (hc : c.isUpper = true) :
    isCamelTail c = false := by
  rw [isCamelTail, isLower_eq_false_of_isUpper hc,
    isDigit_eq_false_of_isUpper hc]
  rfl

/-- A word is read where it stands. -/
lemma camelWordAt_prefix (c : Char) (cs : List Char) :
    camelWordAt c cs <+: c :: cs := by
  rw [camelWordAt]
  dsimp only
  split
  · split
    · split
      · exact List.cons_prefix_cons.mpr ⟨rfl, List.takeWhile_prefix _⟩
      · exact List.cons_prefix_cons.mpr ⟨rfl,
          (List.dropLast_prefix _).trans (List.takeWhile_prefix _)⟩
    · exact List.cons_prefix_cons.mpr ⟨rfl, List.takeWhile_prefix _⟩
  · split
    · exact List.cons_prefix_cons.mpr ⟨rfl, List.takeWhile_prefix _⟩
    · exact List.nil_prefix

/-- A word starts at every letter and every digit. -/
lemma camelWordAt_eq_nil_iff :
    camelWordAt c cs = [] ↔ c.isAlphanum = false := by
  rw [isAlphanum_eq, camelWordAt]
  dsimp only
  split
  · rename_i hupper
    rw [hupper, Bool.true_or]
    refine iff_of_false ?_ Bool.noConfusion
    split
    · split <;> exact List.cons_ne_nil _ _
    · exact List.cons_ne_nil _ _
  · rename_i hupper
    rw [Bool.eq_false_iff.mpr hupper, Bool.false_or]
    split
    · rename_i htail
      exact iff_of_false (List.cons_ne_nil _ _) (by simp [htail])
    · rename_i htail
      exact iff_of_true rfl (Bool.eq_false_iff.mpr htail)

/-- Nothing but letters and digits is read into a word. -/
lemma isAlphanum_of_mem_camelWordAt {d : Char} (hd : d ∈ camelWordAt c cs) :
    d.isAlphanum = true := by
  rw [isAlphanum_eq]
  have hupper : d ∈ cs.takeWhile Char.isUpper → d.isUpper = true :=
    List.mem_takeWhile_imp
  have htail : d ∈ cs.takeWhile isCamelTail → isCamelTail d = true :=
    List.mem_takeWhile_imp
  rw [camelWordAt] at hd
  dsimp only at hd
  split at hd
  · rename_i hc
    split at hd
    · split at hd
      · rcases List.mem_cons.mp hd with rfl | hd
        · rw [hc, Bool.true_or]
        · rw [htail hd, Bool.or_true]
      · rcases List.mem_cons.mp hd with rfl | hd
        · rw [hc, Bool.true_or]
        · rw [hupper ((List.dropLast_subset _) hd), Bool.true_or]
    · rcases List.mem_cons.mp hd with rfl | hd
      · rw [hc, Bool.true_or]
      · rw [hupper hd, Bool.true_or]
  · split at hd
    · rename_i hc
      rcases List.mem_cons.mp hd with rfl | hd
      · rw [hc, Bool.or_true]
      · rw [htail hd, Bool.or_true]
    · exact absurd hd List.not_mem_nil

/-! ### All words -/

@[simp] lemma camelWords_nil : camelWords [] = [] := by
  rw [camelWords]

/-- At the start of a text a character is passed over that belongs to no
word, or a word is read. -/
lemma camelWords_cons (c : Char) (cs : List Char) :
    (c.isAlphanum = false ∧ camelWords (c :: cs) = camelWords cs)
      ∨ ∃ word rest, c :: cs = word ++ rest ∧ word ≠ []
        ∧ (∀ d ∈ word, d.isAlphanum = true)
        ∧ camelWords (c :: cs) = word :: camelWords rest := by
  rw [camelWords]
  split
  · rename_i hempty
    exact .inl ⟨camelWordAt_eq_nil_iff.mp (List.isEmpty_iff.mp hempty), rfl⟩
  · rename_i hword
    obtain ⟨rest, hrest⟩ := camelWordAt_prefix c cs
    rw [List.isEmpty_iff] at hword
    refine .inr ⟨camelWordAt c cs, rest, hrest.symm, hword,
      fun d => isAlphanum_of_mem_camelWordAt, ?_⟩
    obtain ⟨first, more, hmore⟩ := List.exists_cons_of_ne_nil hword
    rw [hmore, List.cons_append, List.cons.injEq] at hrest
    rw [hmore, ← hrest.2, List.length_cons, Nat.add_sub_cancel,
      List.drop_left]

/-- Induction over a text, word by word. -/
@[elab_as_elim]
lemma camelWords_induction {motive : List Char → Prop} (cs : List Char)
    (nil : motive [])
    (skip : ∀ c cs, c.isAlphanum = false →
      camelWords (c :: cs) = camelWords cs → motive cs → motive (c :: cs))
    (word : ∀ word rest, word ≠ [] → (∀ c ∈ word, c.isAlphanum = true) →
      camelWords (word ++ rest) = word :: camelWords rest → motive rest →
      motive (word ++ rest)) :
    motive cs := by
  induction hn : cs.length using Nat.strong_induction_on generalizing cs with
  | _ n ih =>
    subst hn
    cases cs with
    | nil => exact nil
    | cons c cs =>
        rcases camelWords_cons c cs with
          ⟨hc, heq⟩ | ⟨w, rest, hcs, hne, hw, heq⟩
        · exact skip c cs hc heq (ih _ (Nat.lt_succ_self _) cs rfl)
        · have hlength := List.length_pos_iff.mpr hne
          rw [hcs] at heq ⊢
          refine word w rest hne hw heq (ih _ ?_ rest rfl)
          rw [hcs, List.length_append]
          omega

/-- The words together are the letters and digits of the text. -/
theorem flatten_camelWords (cs : List Char) :
    (camelWords cs).flatten = cs.filter Char.isAlphanum := by
  induction cs using camelWords_induction with
  | nil => rw [camelWords_nil, List.flatten_nil, List.filter_nil]
  | skip c cs hc heq ih =>
      rw [heq, ih, List.filter_cons_of_neg (by simp [hc])]
  | word word rest hne hword heq ih =>
      rw [heq, List.flatten_cons, ih, List.filter_append,
        List.filter_eq_self.mpr hword]

lemma camelWords_eq_nil_iff :
    camelWords cs = [] ↔ ∀ c ∈ cs, c.isAlphanum = false := by
  constructor
  · intro h c hc
    have hnone := flatten_camelWords cs
    rw [h, List.flatten_nil] at hnone
    exact Bool.eq_false_iff.mpr
      (List.filter_eq_nil_iff.mp hnone.symm c hc)
  · intro h
    induction cs using camelWords_induction with
    | nil => exact camelWords_nil
    | skip c cs hc heq ih =>
        rw [heq, ih fun d hd => h d (List.mem_cons_of_mem c hd)]
    | word word rest hne hword heq ih =>
        obtain ⟨c, hc⟩ := List.exists_mem_of_ne_nil word hne
        have hnone := h c (List.mem_append_left rest hc)
        rw [hword c hc] at hnone
        cases hnone

/-- What belongs to no word can be left out at the start. -/
lemma camelWords_append_of_gap {gap : List Char}
    (h : ∀ c ∈ gap, c.isAlphanum = false) (cs : List Char) :
    camelWords (gap ++ cs) = camelWords cs := by
  induction gap with
  | nil => rfl
  | cons c gap ih =>
      rw [List.forall_mem_cons] at h
      rw [List.cons_append, camelWords,
        camelWordAt_eq_nil_iff.mpr h.1]
      exact ih h.2

/-- The place of a word: before it stand the words before it, and it is the
first of what follows. -/
lemma exists_of_camelWords_eq (h : camelWords cs = ws ++ w :: ws') :
    ∃ before behind, cs = before ++ (w ++ behind)
      ∧ camelWords (w ++ behind) = w :: ws' := by
  induction cs using camelWords_induction generalizing ws with
  | nil => simp at h
  | skip c cs hc heq ih =>
      rw [heq] at h
      obtain ⟨before, behind, rfl, hwords⟩ := ih h
      exact ⟨c :: before, behind, rfl, hwords⟩
  | word word rest hne hword heq ih =>
      rw [heq] at h
      cases ws with
      | nil =>
          obtain ⟨rfl, hrest⟩ := List.cons.inj h
          exact ⟨[], rest, rfl, by rw [heq, hrest]⟩
      | cons first ws =>
          obtain ⟨before, behind, rfl, hwords⟩ := ih (List.cons.inj h).2
          exact ⟨word ++ before, behind, by simp, hwords⟩

/-! ### Capitals -/

section Capital

variable {cap low : Char} {behind : List Char}

/-- A word does not go on into a capital that starts one. -/
lemma camelWordAt_append (hcap : cap.isUpper = true)
    (hlow : low.isLower = true) (c : Char) (cs : List Char) :
    camelWordAt c (cs ++ cap :: low :: behind) = camelWordAt c cs := by
  have hstop : isCamelTail cap = false := isCamelTail_eq_false_of_isUpper hcap
  have hnext : low.isUpper = false := by
    rw [Bool.eq_false_iff]
    intro hupper
    rw [isLower_eq_false_of_isUpper hupper] at hlow
    cases hlow
  have htail : (cs ++ cap :: low :: behind).takeWhile isCamelTail
      = cs.takeWhile isCamelTail := by
    rw [List.takeWhile_append]
    split
    · rename_i hall
      rw [List.takeWhile_cons_of_neg (by simp [hstop]), List.append_nil,
        (List.takeWhile_prefix _).eq_of_length hall]
    · rfl
  by_cases hall : ∀ d ∈ cs, d.isUpper = true
  · -- the run of capitals goes on into the one that starts a word
    have hrun : (cs ++ cap :: low :: behind).takeWhile Char.isUpper
        = cs ++ [cap] := by
      rw [List.takeWhile_append_of_pos hall,
        List.takeWhile_cons_of_pos hcap,
        List.takeWhile_cons_of_neg (by simp [hnext])]
    have hbehind : (cs ++ cap :: low :: behind).drop (cs.length + 1)
        = low :: behind := by
      rw [List.drop_append]
      simp
    rw [camelWordAt, camelWordAt, htail, hrun,
      List.takeWhile_eq_self_iff.mpr hall]
    dsimp only
    rw [List.length_append, List.length_singleton, hbehind,
      List.drop_length, List.dropLast_concat]
    simp [hlow]
  · have hlength : (cs.takeWhile Char.isUpper).length < cs.length := by
      refine lt_of_le_of_ne (length_takeWhile_le _ _) fun heq => hall ?_
      exact List.takeWhile_eq_self_iff.mp
        ((List.takeWhile_prefix _).eq_of_length heq)
    have hrun : (cs ++ cap :: low :: behind).takeWhile Char.isUpper
        = cs.takeWhile Char.isUpper := by
      rw [List.takeWhile_append, if_neg hlength.ne]
    rw [camelWordAt, camelWordAt, htail, hrun]
    dsimp only
    rw [List.drop_append_of_le_length hlength.le, List.head?_append,
      Option.or_of_isSome (by simpa using hlength)]

/-- What stands before a capital with a small letter behind it is read apart
from it. -/
theorem camelWords_append (hcap : cap.isUpper = true)
    (hlow : low.isLower = true) (cs behind : List Char) :
    camelWords (cs ++ cap :: low :: behind)
      = camelWords cs ++ camelWords (cap :: low :: behind) := by
  fun_induction camelWords cs with
  | case1 => rfl
  | case2 c cs word hempty ih =>
      rw [List.cons_append, camelWords, camelWordAt_append hcap hlow,
        if_pos hempty, ih]
  | case3 c cs word hword ih =>
      have hlength : word.length - 1 ≤ cs.length := by
        have hle : word.length ≤ cs.length + 1 := length_camelWordAt_le c cs
        omega
      rw [List.cons_append, camelWords, camelWordAt_append hcap hlow,
        if_neg hword, List.drop_append_of_le_length hlength, ih,
        List.cons_append]

end Capital

end HeaderBinding
