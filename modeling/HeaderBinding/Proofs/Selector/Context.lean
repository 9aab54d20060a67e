/-
The phrase that a name does not keep.

* `HasPhrase`: a preposition stands behind the start of a text, with a
  capital behind it; `HasPhrase.append`: it stays there in a longer text;
* `beforePhrase_append`: a text is parted where its first phrase starts,
  and `startsPhrase_eq_false` says that none starts before;
* `stripTrailingContext_append`: what is left out of a segment is a
  qualifier, a phrase or both;
* `stripTrailingContext_noPhrase`: what is kept starts the segment, is not
  empty and has no phrase.
-/
import HeaderBinding.Proofs.Selector.Legal

namespace HeaderBinding

variable {c : Char} {cs front back : List Char}

/-! ### Phrases -/

/-- A preposition stands behind the start of the text, and a capital behind
the preposition. -/
def HasPhrase (cs : List Char) : Prop :=
  ∃ front preposition cap behind,
    cs = front ++ (preposition ++ cap :: behind) ∧ front ≠ []
      ∧ String.ofList preposition ∈ trailingPrepositions
      ∧ isCapital cap = true

/-- A phrase starts with a preposition that has a capital behind it. -/
lemma startsPhrase_iff :
    startsPhrase cs = true
      ↔ ∃ preposition cap behind, cs = preposition ++ cap :: behind
        ∧ String.ofList preposition ∈ trailingPrepositions
        ∧ isCapital cap = true := by
  rw [startsPhrase, List.any_eq_true]
  constructor
  · rintro ⟨preposition, hmem, h⟩
    obtain ⟨rest, hrest, hhead⟩ := (Option.any_eq_true _ _).mp h
    obtain ⟨cap, hcap, hcapital⟩ := (Option.any_eq_true _ _).mp hhead
    obtain ⟨behind, rfl⟩ := List.head?_eq_some_iff.mp hcap
    rw [List.isPrefixOf?_eq_some_iff_append_eq] at hrest
    exact ⟨preposition.toList, cap, behind, hrest.symm,
      by rwa [String.ofList_toList], hcapital⟩
  · rintro ⟨preposition, cap, behind, rfl, hmem, hcapital⟩
    refine ⟨_, hmem, (Option.any_eq_true _ _).mpr
      ⟨cap :: behind, ?_, hcapital⟩⟩
    rw [String.toList_ofList, List.isPrefixOf?_eq_some_iff_append_eq]

/-- A text has a phrase if one starts somewhere behind its first
character. -/
lemma hasPhrase_iff :
    HasPhrase cs
      ↔ ∃ front back, cs = front ++ back ∧ front ≠ []
        ∧ startsPhrase back = true := by
  constructor
  · rintro ⟨front, preposition, cap, behind, rfl, hfront, hphrase⟩
    exact ⟨front, _, rfl, hfront,
      startsPhrase_iff.mpr ⟨preposition, cap, behind, rfl, hphrase⟩⟩
  · rintro ⟨front, back, rfl, hfront, hback⟩
    obtain ⟨preposition, cap, behind, rfl, hphrase⟩ :=
      startsPhrase_iff.mp hback
    exact ⟨front, preposition, cap, behind, rfl, hfront, hphrase⟩

lemma not_hasPhrase_nil : ¬ HasPhrase [] := by
  rintro ⟨front, preposition, cap, behind, hnil, -⟩
  simp at hnil

lemma hasPhrase_cons_iff :
    HasPhrase (c :: cs) ↔ ∃ back, back <:+ cs ∧ startsPhrase back = true := by
  rw [hasPhrase_iff]
  constructor
  · rintro ⟨front, back, htext, hfront, hback⟩
    obtain ⟨d, front, rfl⟩ := List.exists_cons_of_ne_nil hfront
    exact ⟨back, ⟨front, (List.cons.inj htext).2.symm⟩, hback⟩
  · rintro ⟨back, ⟨front, rfl⟩, hback⟩
    exact ⟨c :: front, back, rfl, List.cons_ne_nil _ _, hback⟩

instance : ∀ cs, Decidable (HasPhrase cs)
  | [] => .isFalse not_hasPhrase_nil
  | _ :: cs =>
    decidable_of_iff (∃ back ∈ cs.tails, startsPhrase back = true) (by
      simp only [List.mem_tails, hasPhrase_cons_iff])

lemma startsPhrase_append (h : startsPhrase cs = true) (ds : List Char) :
    startsPhrase (cs ++ ds) = true := by
  obtain ⟨preposition, cap, behind, rfl, hphrase⟩ := startsPhrase_iff.mp h
  exact startsPhrase_iff.mpr
    ⟨preposition, cap, behind ++ ds, by simp, hphrase⟩

/-- A phrase of a text is one of every text that goes on from there. -/
lemma HasPhrase.append (h : HasPhrase cs) (ds : List Char) :
    HasPhrase (cs ++ ds) := by
  obtain ⟨front, back, rfl, hfront, hback⟩ := hasPhrase_iff.mp h
  exact hasPhrase_iff.mpr ⟨front, back ++ ds, by simp, hfront,
    startsPhrase_append hback ds⟩

/-! ### The first phrase -/

/-- A text is what stands before its first phrase, and nothing or the
phrase. -/
lemma beforePhrase_append (cs : List Char) :
    ∃ rest, beforePhrase cs ++ rest = cs
      ∧ (rest = [] ∨ startsPhrase rest = true) := by
  induction cs with
  | nil => exact ⟨[], rfl, .inl rfl⟩
  | cons c cs ih =>
      rw [beforePhrase]
      split
      · rename_i hphrase
        exact ⟨c :: cs, rfl, .inr hphrase⟩
      · obtain ⟨rest, hcs, hrest⟩ := ih
        exact ⟨rest, by rw [List.cons_append, hcs], hrest⟩

/-- No phrase starts before the first. -/
lemma startsPhrase_eq_false (h : beforePhrase cs = front ++ back) :
    startsPhrase back = false := by
  induction cs generalizing front with
  | nil =>
      obtain ⟨-, rfl⟩ := List.append_eq_nil_iff.mp h.symm
      rfl
  | cons c cs ih =>
      have hprefix := isPrefix_beforePhrase (c :: cs)
      rw [h] at hprefix
      rw [beforePhrase] at h
      split at h
      · obtain ⟨-, rfl⟩ := List.append_eq_nil_iff.mp h.symm
        rfl
      · rename_i hnone
        cases front with
        | nil =>
            obtain ⟨rest, hrest⟩ := hprefix
            rw [Bool.eq_false_iff]
            intro hback
            exact hnone (hrest ▸ startsPhrase_append hback rest)
        | cons d front => exact ih (List.cons.inj h).2

/-- What stands before the first phrase behind the start has none. -/
lemma not_hasPhrase_beforePhrase (c : Char) (cs : List Char) :
    ¬ HasPhrase (c :: beforePhrase cs) := by
  rw [hasPhrase_cons_iff]
  rintro ⟨back, ⟨front, htext⟩, hback⟩
  rw [startsPhrase_eq_false htext.symm] at hback
  cases hback

/-! ### What is left out -/

/-- A text is kept, or one qualifier is left out at its end. -/
lemma dropQualifier_append (cs : List Char) :
    ∃ qualifier, dropQualifier cs ++ qualifier = cs
      ∧ (qualifier = [] ∨ qualifier = trailingQualifier) := by
  rw [dropQualifier]
  split
  · rename_i h
    obtain ⟨front, rfl⟩ := List.isSuffixOf_iff_suffix.mp h.1
    refine ⟨trailingQualifier, ?_, .inr rfl⟩
    rw [List.length_append, Nat.add_sub_cancel, List.take_left]
  · exact ⟨[], List.append_nil cs, .inl rfl⟩

/-- What is left out of a segment is a qualifier, a phrase, or both. -/
lemma stripTrailingContext_append (segment : String) :
    ∃ qualifier rest, segment.toList
        = (stripTrailingContext segment).toList ++ (qualifier ++ rest)
      ∧ (qualifier = [] ∨ qualifier = trailingQualifier)
      ∧ (rest = [] ∨ startsPhrase rest = true) := by
  rw [stripTrailingContext]
  cases segment.toList with
  | nil => exact ⟨[], [], rfl, .inl rfl, .inl rfl⟩
  | cons c cs =>
      obtain ⟨rest, hcs, hrest⟩ := beforePhrase_append cs
      obtain ⟨qualifier, hkept, hqualifier⟩ :=
        dropQualifier_append (c :: beforePhrase cs)
      refine ⟨qualifier, rest, ?_, hqualifier, hrest⟩
      rw [String.toList_ofList, ← List.append_assoc, hkept,
        List.cons_append, hcs]

/-- What is kept of a segment has no phrase. -/
lemma not_hasPhrase_stripTrailingContext (segment : String) :
    ¬ HasPhrase (stripTrailingContext segment).toList := by
  rw [stripTrailingContext]
  cases segment.toList with
  | nil => exact not_hasPhrase_nil
  | cons c cs =>
      dsimp only
      rw [String.toList_ofList]
      intro h
      obtain ⟨more, hmore⟩ := isPrefix_dropQualifier (c :: beforePhrase cs)
      exact not_hasPhrase_beforePhrase c cs (hmore ▸ h.append more)

/-- **The context at the end of a segment is left out.**  What is kept of a
segment is the start of it, is not empty, and has no phrase; what is left
out is a qualifier, a phrase or both, and of a segment without a phrase
nothing but a qualifier. -/
theorem stripTrailingContext_noPhrase {segment : String}
    (h : segment ≠ "") :
    stripTrailingContext segment ≠ ""
      ∧ (stripTrailingContext segment).toList <+: segment.toList
      ∧ ¬ HasPhrase (stripTrailingContext segment).toList
      ∧ (∃ qualifier rest, segment.toList
          = (stripTrailingContext segment).toList ++ (qualifier ++ rest)
        ∧ (qualifier = [] ∨ qualifier = trailingQualifier)
        ∧ (rest = [] ∨ startsPhrase rest = true))
      ∧ (¬ HasPhrase segment.toList →
        stripTrailingContext segment = segment
          ∨ stripTrailingContext segment ++ "Animated" = segment) := by
  obtain ⟨hstart, hsome⟩ := isPrefix_stripTrailingContext h
  refine ⟨mt String.toList_eq_nil_iff.mpr hsome, hstart,
    not_hasPhrase_stripTrailingContext segment,
    stripTrailingContext_append segment, fun hnone => ?_⟩
  obtain ⟨qualifier, rest, htext, hqualifier, rfl | hrest⟩ :=
    stripTrailingContext_append segment
  · rw [← String.toList_inj, ← String.toList_inj, String.toList_append]
    rw [List.append_nil] at htext
    rcases hqualifier with rfl | rfl
    · rw [List.append_nil] at htext
      exact .inl htext.symm
    · exact .inr htext.symm
  · rw [← List.append_assoc] at htext
    exact absurd (hasPhrase_iff.mpr ⟨_, rest, htext,
      List.append_ne_nil_of_left_ne_nil hsome qualifier, hrest⟩) hnone

/-- A segment with a preposition at its start, a qualifier and two phrases,
and one with two qualifiers and no phrase. -/
theorem stripTrailingContext_noPhrase_animated :
    stripTrailingContext "AtNoteAnimatedWithURLForKey" = "AtNote"
      ∧ ¬ HasPhrase "AtNote".toList
      ∧ ¬ HasPhrase "dataAnimatedAnimated".toList
      ∧ (stripTrailingContext "dataAnimatedAnimated" = "dataAnimatedAnimated"
        ∨ stripTrailingContext "dataAnimatedAnimated" ++ "Animated"
          = "dataAnimatedAnimated") := by
  have hkept : stripTrailingContext "AtNoteAnimatedWithURLForKey"
      = "AtNote" := by
    decide +kernel
  have hnone : ¬ HasPhrase "dataAnimatedAnimated".toList := by
    decide +kernel
  have hphrases : "AtNoteAnimatedWithURLForKey" ≠ "" := by decide
  have hqualifiers : "dataAnimatedAnimated" ≠ "" := by decide
  obtain ⟨-, -, hphrase, -⟩ := stripTrailingContext_noPhrase hphrases
  rw [hkept] at hphrase
  obtain ⟨-, -, -, -, hwhole⟩ := stripTrailingContext_noPhrase hqualifiers
  exact ⟨hkept, hphrase, hnone, hwhole hnone⟩

end HeaderBinding
