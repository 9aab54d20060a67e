/-
Type texts with nested angle brackets.

* `GenericText`: the brackets are nested, and neither the text nor any of
  its arguments has two groups of them side by side;
* `GenericText.of_skeleton`: that depends on brackets and commas only;
* `GenericText.splitGeneric`: the name of such a type has no brackets, and
  its arguments are such texts again.
-/
import HeaderBinding.Proofs.Mapping.Skeleton

namespace HeaderBinding

/-! ### Nested texts -/

/-- The text has no angle brackets. -/
def NoAngles (cs : List Char) : Prop :=
  '<' ∉ cs ∧ '>' ∉ cs

lemma noAngles_nil : NoAngles [] := by
  simp [NoAngles]

/-- The text has no angle brackets, or one outermost group of them around
arguments that are such texts themselves. -/
inductive GenericText : List Char → Prop
  | plain {cs : List Char} (h : NoAngles cs) : GenericText cs
  | group {front back : List Char} {args : List (List Char)}
      (hfront : NoAngles front) (hback : NoAngles back)
      (hargs : ∀ arg ∈ args, GenericText arg) :
      GenericText (front ++ '<' :: ([','].intercalate args ++ '>' :: back))

lemma mem_skeleton_iff {c : Char} (hc : isAngleMark c = true)
    {cs : List Char} : c ∈ skeleton cs ↔ c ∈ cs :=
  List.mem_filter.trans (and_iff_left hc)

lemma NoAngles.of_skeleton {as bs : List Char} (h : NoAngles as)
    (heq : skeleton bs = skeleton as) : NoAngles bs := by
  rw [NoAngles, ← mem_skeleton_iff (by decide), heq,
    mem_skeleton_iff (by decide), ← mem_skeleton_iff (c := '>') (by decide),
    heq, mem_skeleton_iff (by decide)]
  exact h

/-- A text with the brackets and commas of a row of arguments is such a
row. -/
lemma exists_intercalate_of_skeleton {args : List (List Char)}
    {cs : List Char} (h : skeleton cs = skeleton ([','].intercalate args)) :
    ∃ args', args' ≠ [] ∧ cs = [','].intercalate args' ∧ ∀ arg' ∈ args',
      skeleton arg' = [] ∨ ∃ arg ∈ args, skeleton arg' = skeleton arg := by
  induction args generalizing cs with
  | nil => exact ⟨[cs], by simp, by simp,
      by simpa using show skeleton cs = [] from h⟩
  | cons arg args ih =>
      cases args with
      | nil =>
          rw [List.intercalate_singleton] at h
          exact ⟨[cs], by simp, by simp, by simpa using .inr h⟩
      | cons next args =>
          rw [List.intercalate_cons_cons, List.append_assoc,
            List.singleton_append] at h
          obtain ⟨arg', rest, rfl, harg, hrest⟩ :=
            exists_skeleton_split h (by decide)
          obtain ⟨args', hne, rfl, hargs⟩ := ih hrest
          refine ⟨arg' :: args', List.cons_ne_nil _ _, ?_, ?_⟩
          · rw [List.intercalate_cons_of_ne_nil hne, List.append_assoc,
              List.singleton_append]
          · refine List.forall_mem_cons.mpr
              ⟨.inr ⟨arg, List.mem_cons_self, harg⟩, fun a ha => ?_⟩
            exact (hargs a ha).imp_right fun ⟨b, hb, heq⟩ =>
              ⟨b, List.mem_cons_of_mem _ hb, heq⟩

/-- Nesting depends on the angle brackets and commas only. -/
theorem GenericText.of_skeleton {as bs : List Char} (h : GenericText as)
    (heq : skeleton bs = skeleton as) : GenericText bs := by
  induction h generalizing bs with
  | plain h => exact .plain (h.of_skeleton heq)
  | group hfront hback hargs ih =>
      obtain ⟨front, rest, rfl, hf, hrest⟩ :=
        exists_skeleton_split heq (by decide)
      obtain ⟨inner, back, rfl, hi, hb⟩ :=
        exists_skeleton_split hrest (by decide)
      obtain ⟨args', -, rfl, hargs'⟩ := exists_intercalate_of_skeleton hi
      refine .group (hfront.of_skeleton hf) (hback.of_skeleton hb)
        fun arg' harg' => ?_
      rcases hargs' arg' harg' with hnone | ⟨arg, harg, hsame⟩
      · exact .plain (noAngles_nil.of_skeleton hnone)
      · exact ih arg harg hsame

/-! ### Depths -/

/-- Nowhere in the text more angle brackets are closed than were opened,
and all are closed at its end. -/
structure IsBalanced (cs : List Char) : Prop where
  closed : angleDepth cs = 0
  nonneg : ∀ as bs, cs = as ++ bs → 0 ≤ angleDepth as

lemma NoAngles.angleDepth_eq {cs : List Char} (h : NoAngles cs) :
    angleDepth cs = 0 := by
  rw [angleDepth, List.count_eq_zero.mpr h.1, List.count_eq_zero.mpr h.2]
  rfl

lemma NoAngles.of_subset {as bs : List Char} (h : NoAngles bs)
    (hsub : as ⊆ bs) : NoAngles as :=
  ⟨fun hin => h.1 (hsub hin), fun hin => h.2 (hsub hin)⟩

lemma NoAngles.isBalanced {cs : List Char} (h : NoAngles cs) :
    IsBalanced cs where
  closed := h.angleDepth_eq
  nonneg := by
    rintro as bs rfl
    have := (h.of_subset (List.subset_append_left as bs)).angleDepth_eq
    omega

lemma IsBalanced.append {as bs : List Char} (ha : IsBalanced as)
    (hb : IsBalanced bs) : IsBalanced (as ++ bs) where
  closed := by rw [angleDepth_append, ha.closed, hb.closed, Int.add_zero]
  nonneg := by
    intro front back heq
    rcases List.append_eq_append_iff.mp heq with
      ⟨mid, rfl, hmid⟩ | ⟨mid, hmid, -⟩
    · rw [angleDepth_append, ha.closed, Int.zero_add]
      exact hb.nonneg mid back hmid
    · exact ha.nonneg front mid hmid

lemma IsBalanced.brackets {cs : List Char} (h : IsBalanced cs) :
    IsBalanced ('<' :: (cs ++ ['>'])) where
  closed := by
    rw [angleDepth_cons, angleDepth_append, h.closed]
    decide
  nonneg := by
    rintro (_ | ⟨c, front⟩) back heq
    · decide
    rw [List.cons_append] at heq
    obtain ⟨rfl, htail⟩ := List.cons.inj heq
    rw [angleDepth_cons]
    have hopen : angleDepth ['<'] = 1 := by decide
    rcases List.append_eq_append_iff.mp htail with
      ⟨mid, rfl, hmid⟩ | ⟨mid, hmid, -⟩
    · have hclose : -1 ≤ angleDepth mid := by
        rcases List.append_eq_singleton_iff.mp hmid.symm with
          ⟨rfl, -⟩ | ⟨rfl, -⟩
        · decide
        · decide
      rw [angleDepth_append, h.closed]
      omega
    · have := h.nonneg front mid hmid
      omega

lemma isBalanced_intercalate {args : List (List Char)}
    (h : ∀ arg ∈ args, IsBalanced arg) :
    IsBalanced ([','].intercalate args) := by
  have hcomma : IsBalanced [','] := NoAngles.isBalanced (by simp [NoAngles])
  induction args with
  | nil => exact noAngles_nil.isBalanced
  | cons arg args ih =>
      obtain ⟨harg, hargs⟩ := List.forall_mem_cons.mp h
      cases args with
      | nil => rwa [List.intercalate_singleton]
      | cons next args =>
          rw [List.intercalate_cons_cons]
          exact (harg.append hcomma).append (ih hargs)

lemma GenericText.isBalanced {cs : List Char} (h : GenericText cs) :
    IsBalanced cs := by
  induction h with
  | plain h => exact h.isBalanced
  | group hfront hback hargs ih =>
      have := (hfront.isBalanced.append
        (isBalanced_intercalate ih).brackets).append hback.isBalanced
      simpa using this

/-! ### Arguments -/

/-- A comma at depth zero parts the pieces. -/
lemma splitAtDepth_append_comma {depth : Int} {as : List Char}
    (h : depth + angleDepth as = 0) (bs : List Char) :
    splitAtDepth ['<'] ['>'] depth (as ++ ',' :: bs)
      = splitAtDepth ['<'] ['>'] depth as ++ splitAtDepth ['<'] ['>'] 0 bs := by
  induction as generalizing depth with
  | nil =>
      obtain rfl : depth = 0 := by simpa [angleDepth] using h
      rfl
  | cons c as ih =>
      have hrest := @ih (depth + angleDepth [c])
        (by rwa [angleDepth_cons, ← Int.add_assoc] at h)
      rw [List.cons_append, splitAtDepth, splitAtDepth, depth_after, hrest]
      split
      · rfl
      · obtain ⟨p, ps, hp⟩ := List.exists_cons_of_ne_nil
          (splitAtDepth_ne_nil ['<'] ['>'] (depth + angleDepth [c]) as)
        rw [hp]
        rfl

lemma subset_intercalate {ps : List (List Char)} {p : List Char}
    (hp : p ∈ ps) : p ⊆ [','].intercalate ps := by
  induction ps with
  | nil => cases hp
  | cons q ps ih =>
      cases ps with
      | nil =>
          obtain rfl := List.mem_singleton.mp hp
          rw [List.intercalate_singleton]
          exact List.Subset.refl _
      | cons r ps =>
          rw [List.intercalate_cons_cons]
          rcases List.mem_cons.mp hp with rfl | hp
          · rw [List.append_assoc]
            exact List.subset_append_left _ _
          · exact List.Subset.trans (ih hp) (List.subset_append_right _ _)

/-- Pieces of a text without brackets have none. -/
lemma NoAngles.of_mem_splitAtDepth {cs p : List Char} {depth : Int}
    (h : NoAngles cs) (hp : p ∈ splitAtDepth ['<'] ['>'] depth cs) :
    NoAngles p := by
  rw [← intercalate_splitAtDepth ['<'] ['>'] depth cs] at h
  exact h.of_subset (subset_intercalate hp)

/-- Every comma between two brackets has one open in front of it. -/
lemma IsBalanced.comma_inside {inner front back : List Char}
    (h : IsBalanced inner)
    (heq : '<' :: (inner ++ ['>']) = front ++ ',' :: back) :
    0 < angleDepth front := by
  cases front with
  | nil => cases heq
  | cons c front =>
      rw [List.cons_append] at heq
      obtain ⟨rfl, htail⟩ := List.cons.inj heq
      have hopen : angleDepth ['<'] = 1 := by decide
      rw [angleDepth_cons]
      rcases List.append_eq_append_iff.mp htail with
        ⟨mid, -, hmid⟩ | ⟨mid, hmid, -⟩
      · cases mid <;> simp at hmid
      · have := h.nonneg front mid hmid
        omega

/-- The pieces of a group of brackets with some text around it. -/
lemma genericText_splitAtDepth_group {front back : List Char}
    {args : List (List Char)} (hfront : NoAngles front)
    (hback : NoAngles back) (hargs : ∀ arg ∈ args, GenericText arg) :
    ∀ p ∈ splitAtDepth ['<'] ['>'] 0
        (front ++ '<' :: ([','].intercalate args ++ '>' :: back)),
      GenericText p := by
  induction front with
  | nil =>
      have hinner : IsBalanced ([','].intercalate args) :=
        isBalanced_intercalate fun arg harg => (hargs arg harg).isBalanced
      obtain ⟨p, ps, hp, hpieces⟩ := splitAtDepth_append 0
        (fun f b heq => by simpa using hinner.comma_inside heq) back
      rw [hinner.brackets.closed, Int.add_zero] at hp
      have hplain : ∀ q ∈ p :: ps, NoAngles q := fun q hq =>
        hback.of_mem_splitAtDepth (hp ▸ hq)
      obtain ⟨hfirst, hrest⟩ := List.forall_mem_cons.mp hplain
      have hgroup := GenericText.group noAngles_nil hfirst hargs
      rw [List.nil_append, List.append_cons, ← List.cons_append, hpieces]
      refine List.forall_mem_cons.mpr
        ⟨by simpa using hgroup, fun q hq => .plain (hrest q hq)⟩
  | cons c front ih =>
      obtain ⟨hopen, hclose⟩ := hfront
      rw [List.mem_cons, not_or] at hopen hclose
      have hpieces := ih ⟨hopen.2, hclose.2⟩
      have hdepth : (0 : Int) + angleDepth [c] = 0 := by
        simp [angleDepth, Ne.symm hopen.1, Ne.symm hclose.1]
      rw [List.cons_append, splitAtDepth, depth_after, hdepth]
      split
      · exact List.forall_mem_cons.mpr ⟨.plain noAngles_nil, hpieces⟩
      · rename_i hcomma
        obtain ⟨p, ps, hp⟩ := List.exists_cons_of_ne_nil
          (splitAtDepth_ne_nil ['<'] ['>'] 0
            (front ++ '<' :: ([','].intercalate args ++ '>' :: back)))
        rw [hp, List.forall_mem_cons] at hpieces
        rw [hp]
        -- a character that is no mark does not matter
        have hmark : isAngleMark c = false := by
          have : c ≠ ',' := fun heq => hcomma ⟨heq, rfl⟩
          simp [isAngleMark, Ne.symm hopen.1, Ne.symm hclose.1, this]
        exact List.forall_mem_cons.mpr
          ⟨hpieces.1.of_skeleton (List.filter_cons_of_neg (by simp [hmark])),
            hpieces.2⟩

/-- The pieces of a nested text are nested texts. -/
lemma GenericText.of_mem_splitAtDepth {cs p : List Char} (h : GenericText cs)
    (hp : p ∈ splitAtDepth ['<'] ['>'] 0 cs) : GenericText p := by
  cases h with
  | plain h => exact .plain (h.of_mem_splitAtDepth hp)
  | group hfront hback hargs =>
      exact genericText_splitAtDepth_group hfront hback hargs p hp

/-- So are the arguments in a row of them. -/
lemma genericText_of_mem_intercalate {args : List (List Char)}
    (hargs : ∀ arg ∈ args, GenericText arg) :
    ∀ p ∈ splitAtDepth ['<'] ['>'] 0 ([','].intercalate args),
      GenericText p := by
  induction args with
  | nil =>
      intro p hp
      exact .plain (noAngles_nil.of_mem_splitAtDepth hp)
  | cons arg args ih =>
      obtain ⟨harg, hrest⟩ := List.forall_mem_cons.mp hargs
      cases args with
      | nil =>
          rw [List.intercalate_singleton]
          exact fun p hp => harg.of_mem_splitAtDepth hp
      | cons next args =>
          rw [List.intercalate_cons_cons, List.append_assoc,
            List.singleton_append, splitAtDepth_append_comma
              (by rw [harg.isBalanced.closed, Int.add_zero])]
          exact List.forall_mem_append.mpr
            ⟨fun p hp => harg.of_mem_splitAtDepth hp, ih hrest⟩

/-- The name of a nested text with brackets has none, and its arguments are
nested texts. -/
theorem GenericText.splitGeneric {base : List Char} (h : GenericText base)
    (hangle : '<' ∈ base) :
    NoAngles (splitGeneric base).1
      ∧ ∀ arg ∈ (splitGeneric base).2, GenericText arg := by
  cases h with
  | plain h => exact absurd hangle h.1
  | @group front back args hfront hback hargs =>
      rw [splitGeneric_group hfront.1 hback.2]
      refine ⟨?_, fun arg harg => ?_⟩
      · exact hfront.of_skeleton (skeleton_trim front)
      · obtain ⟨p, hp, rfl⟩ := exists_of_mem_topLevelParts harg
        exact (genericText_of_mem_intercalate hargs p hp).of_skeleton
          (skeleton_trim p)

end HeaderBinding
