/-
The words of a name tile it.

* `IsCamelWord`: the shapes of words; `ReadsWord`: a word in front of a
  rest, with what has to stop it there;
* `camelWordAt_eq_iff`: this is the word that is read at the start;
* `Tiling`: words, with gaps between them, make up a text;
  `tiling_iff`: this is so for the words that are read, and no others;
* `splitCamelWords_tile`: nothing but the gaps is left out of the words,
  each has one of the shapes, and no small letter stands behind capitals
  that are a word.
-/
import HeaderBinding.Proofs.Selector.Words

namespace HeaderBinding

variable {c : Char} {cs rest w more : List Char} {ws ws' : List (List Char)}

/-! ### Shapes -/

/-- The shapes of words: capitals; a capital with small letters and digits
behind it; small letters and digits. -/
inductive IsCamelWord : List Char → Prop
  | capitals {w : List Char} : w ≠ [] → (∀ c ∈ w, c.isUpper = true) →
      IsCamelWord w
  | capitalized {c : Char} {w : List Char} : c.isUpper = true →
      (∀ d ∈ w, isCamelTail d = true) → IsCamelWord (c :: w)
  | small {w : List Char} : w ≠ [] → (∀ c ∈ w, isCamelTail c = true) →
      IsCamelWord w

lemma IsCamelWord.isAlphanum (h : IsCamelWord w) :
    ∀ c ∈ w, c.isAlphanum = true := by
  have hupper : ∀ c : Char, c.isUpper = true → c.isAlphanum = true :=
    fun c hc => by rw [isAlphanum_eq, hc, Bool.true_or]
  have htail : ∀ c, isCamelTail c = true → c.isAlphanum = true :=
    fun c hc => by rw [isAlphanum_eq, hc, Bool.or_true]
  cases h with
  | capitals _ hw => exact fun c hc => hupper c (hw c hc)
  | capitalized hc hw =>
      exact List.forall_mem_cons.mpr
        ⟨hupper _ hc, fun d hd => htail d (hw d hd)⟩
  | small _ hw => exact fun c hc => htail c (hw c hc)

/-- What can stand behind capitals that are a word: no small letter, and a
capital only if it starts a word with the small letter behind it. -/
def StopsCapitals (rest : List Char) : Prop :=
  rest.head?.any Char.isLower = false
    ∧ (rest.head?.any Char.isUpper = true →
      rest.tail.head?.any Char.isLower = true)

/-- A word in front of a rest that it does not go on into. -/
inductive ReadsWord : List Char → List Char → Prop
  | capitals {w rest : List Char} : w ≠ [] → (∀ c ∈ w, c.isUpper = true) →
      StopsCapitals rest → ReadsWord w rest
  | capitalized {cap low : Char} {w rest : List Char} :
      cap.isUpper = true → low.isLower = true →
      (∀ c ∈ w, isCamelTail c = true) →
      rest.head?.any isCamelTail = false → ReadsWord (cap :: low :: w) rest
  | small {w rest : List Char} : w ≠ [] →
      (∀ c ∈ w, isCamelTail c = true) →
      rest.head?.any isCamelTail = false → ReadsWord w rest

lemma isUpper_eq_false_of_isLower (h : c.isLower = true) :
    c.isUpper = false := by
  rw [Bool.eq_false_iff]
  intro hupper
  rw [isLower_eq_false_of_isUpper hupper] at h
  cases h

lemma isCamelTail_of_isLower (h : c.isLower = true) :
    isCamelTail c = true := by
  rw [isCamelTail, h, Bool.true_or]

lemma ReadsWord.ne_nil (h : ReadsWord w rest) : w ≠ [] := by
  cases h with
  | capitals hne => exact hne
  | capitalized => exact List.cons_ne_nil _ _
  | small hne => exact hne

lemma ReadsWord.isCamelWord (h : ReadsWord w rest) : IsCamelWord w := by
  cases h with
  | capitals hne hw => exact .capitals hne hw
  | capitalized hcap hlow hw =>
      exact .capitalized hcap
        (List.forall_mem_cons.mpr ⟨isCamelTail_of_isLower hlow, hw⟩)
  | small hne hw => exact .small hne hw

/-- Capitals that are a word have no small letter behind them. -/
lemma ReadsWord.head?_any_isLower (h : ReadsWord w rest)
    (hw : ∀ c ∈ w, c.isUpper = true) : rest.head?.any Char.isLower = false := by
  cases h with
  | capitals _ _ hstop => exact hstop.1
  | @capitalized cap low tail _ _ hlow =>
      have hupper := hw low (by simp)
      rw [isUpper_eq_false_of_isLower hlow] at hupper
      cases hupper
  | small hne hsmall =>
      obtain ⟨c, hc⟩ := List.exists_mem_of_ne_nil w hne
      have hnone := isCamelTail_eq_false_of_isUpper (hw c hc)
      rw [hsmall c hc] at hnone
      cases hnone

/-! ### The word at the start -/

/-- The run at the start of a text: what has the property, up to what has
not. -/
lemma takeWhile_append_eq_iff {p : Char → Bool} :
    (w ++ rest).takeWhile p = w
      ↔ (∀ c ∈ w, p c = true) ∧ rest.head?.any p = false := by
  have hstop : rest.takeWhile p = [] ↔ rest.head?.any p = false := by
    cases rest with
    | nil => exact iff_of_true rfl rfl
    | cons c rest => cases hc : p c <;> simp [hc]
  constructor
  · intro h
    have hw : ∀ c ∈ w, p c = true := fun c hc =>
      List.mem_takeWhile_imp (l := w ++ rest) (by rwa [h])
    rw [List.takeWhile_append_of_pos hw, List.append_right_eq_self] at h
    exact ⟨hw, hstop.mp h⟩
  · rintro ⟨hw, hrest⟩
    rw [List.takeWhile_append_of_pos hw, hstop.mpr hrest, List.append_nil]

/-- Every text is a run and what stops it. -/
lemma exists_run (p : Char → Bool) (cs : List Char) :
    ∃ run behind, cs = run ++ behind ∧ (∀ c ∈ run, p c = true)
      ∧ behind.head?.any p = false := by
  refine ⟨cs.takeWhile p, cs.dropWhile p,
    (List.takeWhile_append_dropWhile).symm, takeWhile_append_eq_iff.mp ?_⟩
  rw [List.takeWhile_append_dropWhile]

section Capital

variable {run behind : List Char}

/-- What is read from a capital on depends on what stops the capitals. -/
lemma camelWordAt_of_isUpper (hc : c.isUpper = true)
    (hrun : ∀ d ∈ run, d.isUpper = true)
    (hbehind : behind.head?.any Char.isUpper = false) :
    camelWordAt c (run ++ behind)
      = if behind.head?.any Char.isLower then
          if run.isEmpty then c :: behind.takeWhile isCamelTail
          else c :: run.dropLast
        else c :: run := by
  rw [camelWordAt, if_pos hc,
    takeWhile_append_eq_iff.mpr ⟨hrun, hbehind⟩]
  dsimp only
  rw [List.drop_left]
  cases run <;> rfl

/-- From a capital on, capitals are read, or the small letters and digits
behind it. -/
lemma readsWord_of_isUpper (hc : c.isUpper = true)
    (h : camelWordAt c (more ++ rest) = c :: more) :
    ReadsWord (c :: more) rest := by
  obtain ⟨run, behind, htext, hrun, hbehind⟩ :=
    exists_run Char.isUpper (more ++ rest)
  rw [htext, camelWordAt_of_isUpper hc hrun hbehind] at h
  split at h
  · rename_i hlow
    split at h
    · -- the capital stands alone in front of a small letter
      rename_i hnone
      rw [List.isEmpty_iff] at hnone
      rw [hnone, List.nil_append] at htext
      rw [← htext, List.cons.injEq] at h
      obtain ⟨hmore, hstop⟩ := takeWhile_append_eq_iff.mp h.2
      rw [← htext] at hlow
      cases more with
      | nil =>
          obtain ⟨low, hhead, hlow⟩ := (Option.any_eq_true _ _).mp hlow
          rw [List.nil_append] at hhead
          rw [hhead, Option.any_some, isCamelTail_of_isLower hlow] at hstop
          cases hstop
      | cons low tail =>
          exact .capitalized hc hlow (List.forall_mem_cons.mp hmore).2 hstop
    · -- the last capital is left to the small letter behind it
      rename_i hsome
      have hne : run ≠ [] := by simpa using hsome
      obtain ⟨-, hinit⟩ := List.cons.inj h
      have hlast := List.dropLast_concat_getLast hne
      rw [hinit] at hlast
      rw [← hlast, List.append_assoc, List.append_cancel_left_eq] at htext
      have hupper := hrun _ (List.getLast_mem hne)
      refine .capitals (List.cons_ne_nil _ _)
        (List.forall_mem_cons.mpr ⟨hc, fun d hd => hrun d ?_⟩) ?_
      · exact hlast ▸ List.mem_append_left _ hd
      · rw [htext]
        exact ⟨isLower_eq_false_of_isUpper hupper, fun _ => hlow⟩
  · rename_i hlow
    obtain ⟨-, rfl⟩ := List.cons.inj h
    obtain rfl := List.append_cancel_left htext
    exact .capitals (List.cons_ne_nil _ _)
      (List.forall_mem_cons.mpr ⟨hc, hrun⟩)
      ⟨Bool.eq_false_iff.mpr hlow, fun hupper => by
        rw [hbehind] at hupper; cases hupper⟩

/-- Capitals are read up to what stops them. -/
lemma camelWordAt_of_stopsCapitals
    (hw : ∀ d ∈ c :: more, d.isUpper = true) (hstop : StopsCapitals rest) :
    camelWordAt c (more ++ rest) = c :: more := by
  obtain ⟨hc, hmore⟩ := List.forall_mem_cons.mp hw
  obtain ⟨hlow, hnext⟩ := hstop
  cases hupper : rest.head?.any Char.isUpper with
  | false =>
      rw [camelWordAt_of_isUpper hc hmore hupper, hlow,
        if_neg Bool.false_ne_true]
  | true =>
      obtain ⟨cap, hhead, hcap⟩ := (Option.any_eq_true _ _).mp hupper
      obtain ⟨behind, rfl⟩ := List.head?_eq_some_iff.mp hhead
      have hbehind : behind.head?.any Char.isLower = true := hnext hupper
      have hend : behind.head?.any Char.isUpper = false := by
        obtain ⟨low, hlow', hsmall⟩ := (Option.any_eq_true _ _).mp hbehind
        rw [hlow', Option.any_some, isUpper_eq_false_of_isLower hsmall]
      have hrun : ∀ d ∈ more ++ [cap], d.isUpper = true := by
        simpa [or_imp, forall_and] using ⟨hmore, hcap⟩
      rw [← List.singleton_append, ← List.append_assoc,
        camelWordAt_of_isUpper hc hrun hend, if_pos hbehind,
        if_neg (by simp), List.dropLast_concat]

end Capital

/-- **The word at the start of a text**: it is read exactly if it has one of
the shapes and stops where words of the shape do. -/
theorem camelWordAt_eq_iff :
    camelWordAt c (more ++ rest) = c :: more ↔ ReadsWord (c :: more) rest := by
  constructor
  · intro h
    by_cases hc : c.isUpper = true
    · exact readsWord_of_isUpper hc h
    · rw [camelWordAt, if_neg hc] at h
      split at h
      · rename_i htail
        obtain ⟨hmore, hstop⟩ :=
          takeWhile_append_eq_iff.mp (List.cons.inj h).2
        exact .small (List.cons_ne_nil _ _)
          (List.forall_mem_cons.mpr ⟨htail, hmore⟩) hstop
      · cases h
  · intro h
    cases h with
    | capitals _ hw hstop => exact camelWordAt_of_stopsCapitals hw hstop
    | @capitalized _ low tail _ hcap hlow hw hstop =>
        have htail : ∀ d ∈ low :: tail, isCamelTail d = true :=
          List.forall_mem_cons.mpr ⟨isCamelTail_of_isLower hlow, hw⟩
        have hbehind : (low :: tail ++ rest).head?.any Char.isLower = true :=
          hlow
        have hcapital : (low :: tail ++ rest).head?.any Char.isUpper
            = false :=
          isUpper_eq_false_of_isLower hlow
        have hread := camelWordAt_of_isUpper hcap (List.forall_mem_nil _)
          hcapital
        rw [List.nil_append, takeWhile_append_eq_iff.mpr ⟨htail, hstop⟩,
          if_pos hbehind] at hread
        exact hread
    | small _ hw hstop =>
        obtain ⟨hc, hmore⟩ := List.forall_mem_cons.mp hw
        have hupper : ¬ c.isUpper = true := fun hupper => by
          rw [isCamelTail_eq_false_of_isUpper hupper] at hc
          cases hc
        rw [camelWordAt, if_neg hupper, if_pos hc,
          takeWhile_append_eq_iff.mpr ⟨hmore, hstop⟩]

/-! ### All words -/

/-- Words make up a text, with gaps between them that have no letter and no
digit. -/
inductive Tiling : List Char → List (List Char) → Prop
  | nil : Tiling [] []
  | gap {c : Char} {cs : List Char} {ws : List (List Char)} :
      c.isAlphanum = false → Tiling cs ws → Tiling (c :: cs) ws
  | word {w rest : List Char} {ws : List (List Char)} :
      ReadsWord w rest → Tiling rest ws → Tiling (w ++ rest) (w :: ws)

lemma camelWords_append_of_readsWord (h : ReadsWord w rest) :
    camelWords (w ++ rest) = w :: camelWords rest := by
  obtain ⟨c, more, rfl⟩ := List.exists_cons_of_ne_nil h.ne_nil
  rw [List.cons_append, camelWords, camelWordAt_eq_iff.mpr h,
    if_neg (by simp), List.length_cons, Nat.add_sub_cancel, List.drop_left]

lemma tiling_camelWords (cs : List Char) : Tiling cs (camelWords cs) := by
  induction cs using camelWords_induction with
  | nil =>
      rw [camelWords_nil]
      exact .nil
  | skip c cs hc heq ih =>
      rw [heq]
      exact .gap hc ih
  | word word rest hne hword heq ih =>
      obtain ⟨c, more, rfl⟩ := List.exists_cons_of_ne_nil hne
      have hsome : ¬ (camelWordAt c (more ++ rest)).isEmpty = true := by
        rw [List.isEmpty_iff, camelWordAt_eq_nil_iff,
          hword c List.mem_cons_self]
        exact Bool.noConfusion
      have hread := heq
      rw [List.cons_append, camelWords, if_neg hsome] at hread
      rw [heq]
      exact .word (camelWordAt_eq_iff.mp (List.cons.inj hread).1) ih

/-- **Words tile the text**: the words that are read do, and no others. -/
theorem tiling_iff : Tiling cs ws ↔ camelWords cs = ws := by
  constructor
  · intro h
    induction h with
    | nil => exact camelWords_nil
    | @gap c cs ws hc _ ih =>
        have hgap : ∀ d ∈ [c], d.isAlphanum = false :=
          List.forall_mem_singleton.mpr hc
        rw [← ih]
        exact camelWords_append_of_gap hgap cs
    | word hread _ ih => rw [camelWords_append_of_readsWord hread, ih]
  · rintro rfl
    exact tiling_camelWords cs

/-- The letters and digits of a text are those of its words. -/
lemma Tiling.flatten_eq (h : Tiling cs ws) :
    ws.flatten = cs.filter Char.isAlphanum := by
  rw [← tiling_iff.mp h, flatten_camelWords]

/-- The place of each word: in front of it stand the letters and digits of
the words before it, and behind it those of the words that follow. -/
lemma Tiling.exists_place (h : Tiling cs (ws ++ w :: ws')) :
    ∃ before behind, cs = before ++ (w ++ behind) ∧ ReadsWord w behind
      ∧ before.filter Char.isAlphanum = ws.flatten
      ∧ behind.filter Char.isAlphanum = ws'.flatten := by
  generalize hall : ws ++ w :: ws' = all at h
  induction h generalizing ws with
  | nil => simp at hall
  | @gap c cs all hc _ ih =>
      obtain ⟨before, behind, rfl, hread, hbefore, hbehind⟩ := ih hall
      refine ⟨c :: before, behind, rfl, hread, ?_, hbehind⟩
      rw [List.filter_cons_of_neg (by simp [hc]), hbefore]
  | @word first rest all hfirst hrest ih =>
      cases ws with
      | nil =>
          obtain ⟨rfl, rfl⟩ := List.cons.inj hall
          exact ⟨[], rest, rfl, hfirst, rfl, hrest.flatten_eq.symm⟩
      | cons front ws =>
          obtain ⟨rfl, hrow⟩ := List.cons.inj hall
          obtain ⟨before, behind, rfl, hread, hbefore, hbehind⟩ := ih hrow
          refine ⟨front ++ before, behind, by simp, hread, ?_, hbehind⟩
          rw [List.filter_append, hbefore, List.flatten_cons,
            List.filter_eq_self.mpr hfirst.isCamelWord.isAlphanum]

/-- The words of a name, as texts. -/
lemma map_toList_splitCamelWords (name : String) :
    (splitCamelWords name).map String.toList = camelWords name.toList := by
  simp [splitCamelWords, Function.comp_def]

lemma toList_join (words : List String) :
    (String.join words).toList = (words.map String.toList).flatten := by
  rw [String.toList_join, List.flatMap_def]

/-- **The words of a name tile it.**  Together they are the letters and
digits of the name; and each of them stands at a place of its own, between
the letters and digits of the words before it and of those that follow, has
one of the shapes of words, and has no small letter behind it if it is
written in capitals. -/
theorem splitCamelWords_tile (name : String) :
    (String.join (splitCamelWords name)).toList
        = name.toList.filter Char.isAlphanum
      ∧ ∀ words w words', splitCamelWords name = words ++ w :: words' →
        ∃ before behind, name.toList = before ++ (w.toList ++ behind)
          ∧ before.filter Char.isAlphanum = (String.join words).toList
          ∧ behind.filter Char.isAlphanum = (String.join words').toList
          ∧ IsCamelWord w.toList
          ∧ ((∀ c ∈ w.toList, c.isUpper = true) →
            behind.head?.any Char.isLower = false) := by
  have htiling := tiling_camelWords name.toList
  rw [← map_toList_splitCamelWords] at htiling
  constructor
  · rw [toList_join, htiling.flatten_eq]
  · intro words w words' h
    rw [h, List.map_append, List.map_cons] at htiling
    obtain ⟨before, behind, hname, hread, hbefore, hbehind⟩ :=
      htiling.exists_place
    rw [toList_join, toList_join]
    exact ⟨before, behind, hname, hbefore, hbehind, hread.isCamelWord,
      hread.head?_any_isLower⟩

/-- Capitals in front of a capitalized word, digits, and gaps of two
kinds. -/
theorem splitCamelWords_tile_mixed :
    splitCamelWords "getHTTPServer2_URLsÄnd"
        = ["get"] ++ "HTTP" :: ["Server2", "UR", "Ls", "nd"]
      ∧ ∃ before behind, "getHTTPServer2_URLsÄnd".toList
          = before ++ ("HTTP".toList ++ behind)
        ∧ before.filter Char.isAlphanum = (String.join ["get"]).toList
        ∧ behind.head?.any Char.isLower = false := by
  have hwords : splitCamelWords "getHTTPServer2_URLsÄnd"
      = ["get"] ++ "HTTP" :: ["Server2", "UR", "Ls", "nd"] := by
    decide +kernel
  obtain ⟨before, behind, hname, hbefore, -, -, hnone⟩ :=
    (splitCamelWords_tile "getHTTPServer2_URLsÄnd").2 _ _ _ hwords
  exact ⟨hwords, before, behind, hname, hbefore,
    hnone (List.all_eq_true.mp (by decide))⟩

end HeaderBinding
