/-
The angle brackets and commas of a type.

* `skeleton`: only these, in their order; taking off qualifiers, blanks and
  stars leaves them as they are (`skeleton_baseOf`);
* `CommasInAngles`: every comma has an angle bracket open in front of it;
  then the text is one argument (`topLevelParts_of_commasInAngles`);
* `splitGeneric_group`: how a type with one group of brackets is taken
  apart.
-/
import HeaderBinding.Proofs.Mapping.Stripped

namespace HeaderBinding

/-! ### Skeletons -/

/-- An angle bracket or a comma. -/
def isAngleMark (c : Char) : Bool :=
  c == '<' || c == '>' || c == ','

/-- The angle brackets and commas of a text. -/
def skeleton (cs : List Char) : List Char :=
  cs.filter isAngleMark

@[simp] lemma skeleton_append (as bs : List Char) :
    skeleton (as ++ bs) = skeleton as ++ skeleton bs :=
  List.filter_append ..

lemma skeleton_eq_nil {cs : List Char}
    (h : ∀ c ∈ cs, isAngleMark c = false) : skeleton cs = [] :=
  List.filter_eq_nil_iff.mpr fun c hc => by simp [h c hc]

lemma isPointerMark_of_isAngleMark {c : Char} (h : isAngleMark c = true) :
    isPointerMark c = false ∧ isWordChar c = false := by
  simp only [isAngleMark, Bool.or_eq_true, beq_iff_eq] at h
  rcases h with (rfl | rfl) | rfl <;> exact ⟨by decide, by decide⟩

lemma isAngleMark_of_isPointerMark {c : Char}
    (h : isPointerMark c = true) : isAngleMark c = false := by
  rw [Bool.eq_false_iff]
  intro hangle
  rw [(isPointerMark_of_isAngleMark hangle).1] at h
  cases h

lemma isAngleMark_of_isBlank {c : Char} (h : isBlank c = true) :
    isAngleMark c = false :=
  isAngleMark_of_isPointerMark (isPointerMark_of_isBlank h)

lemma isAngleMark_of_isWordChar {c : Char} (h : isWordChar c = true) :
    isAngleMark c = false := by
  rw [Bool.eq_false_iff]
  intro hangle
  rw [(isPointerMark_of_isAngleMark hangle).2] at h
  cases h

lemma skeleton_cons_blank {c : Char} (hc : isBlank c = true)
    (cs : List Char) : skeleton (c :: cs) = skeleton cs :=
  List.filter_cons_of_neg (by simp [isAngleMark_of_isBlank hc])

lemma skeleton_cons_congr {as bs : List Char}
    (h : skeleton as = skeleton bs) (c : Char) :
    skeleton (c :: as) = skeleton (c :: bs) := by
  rw [← List.singleton_append, skeleton_append, h, ← skeleton_append,
    List.singleton_append]

@[simp] lemma skeleton_squeeze (cs : List Char) :
    skeleton (squeeze cs) = skeleton cs :=
  apply_squeeze skeleton_cons_blank skeleton_cons_congr cs

lemma skeleton_blankOutWords {words : List (List Char)}
    (hwords : ∀ w ∈ words, w ≠ [] ∧ IsWord w) (cs : List Char) :
    skeleton (blankOutWords words cs) = skeleton cs := by
  induction cs using run_induction with
  | nil => rfl
  | run b run rest hne hu hrest ih =>
      rw [blankOutWords_run hne hu hrest, skeleton_append, skeleton_append, ih]
      refine congrArg (· ++ _) ?_
      split
      · rename_i hin
        obtain ⟨-, hword⟩ := hwords run (List.contains_iff_mem.mp hin)
        exact (skeleton_eq_nil fun c hc =>
          isAngleMark_of_isWordChar (hword c hc)).symm
      · rfl

lemma tagPrefixes_skeleton : ∀ tag ∈ tagPrefixes, skeleton tag = [] := by
  decide +kernel

lemma skeleton_dropTag (cs : List Char) :
    skeleton (dropTag cs) = skeleton cs := by
  rcases dropTag_cases cs with ⟨-, heq⟩ | ⟨tag, htag, heq⟩
  · rw [heq]
  · conv_rhs => rw [heq]
    rw [skeleton_append, tagPrefixes_skeleton tag htag, List.nil_append]

@[simp] lemma skeleton_stripQualifiers (cs : List Char) :
    skeleton (stripQualifiers cs) = skeleton cs := by
  rw [stripQualifiers, skeleton_dropTag, skeleton_squeeze,
    skeleton_blankOutWords strippedWords_isWord]

@[simp] lemma skeleton_trim (cs : List Char) :
    skeleton (trim cs) = skeleton cs := by
  obtain ⟨front, back, heq, hfront, hback⟩ := exists_trim cs
  conv_rhs => rw [heq]
  rw [skeleton_append, skeleton_append,
    skeleton_eq_nil fun c hc => isAngleMark_of_isBlank (hfront c hc),
    skeleton_eq_nil fun c hc => isAngleMark_of_isBlank (hback c hc),
    List.nil_append, List.append_nil]

@[simp] lemma skeleton_splitPointers (cs : List Char) :
    skeleton (splitPointers cs).1 = skeleton cs := by
  obtain ⟨marks, heq, hmarks⟩ :=
    exists_dropEnd_append isPointerMark (trim cs)
  have hsame := congrArg skeleton heq
  rw [skeleton_append, skeleton_trim, skeleton_eq_nil fun c hc =>
    isAngleMark_of_isPointerMark (hmarks c hc), List.append_nil] at hsame
  exact hsame.symm

/-- The name of a type has the angle brackets and commas of the type. -/
theorem skeleton_baseOf (cs : List Char) :
    skeleton (baseOf cs) = skeleton cs := by
  rw [baseOf, skeleton_splitPointers, skeleton_stripQualifiers]

/-- Texts with the same brackets and commas are parted alike. -/
lemma exists_skeleton_split {as bs cs : List Char} {c : Char}
    (h : skeleton cs = skeleton (as ++ c :: bs)) (hc : isAngleMark c = true) :
    ∃ as' bs', cs = as' ++ c :: bs' ∧ skeleton as' = skeleton as
      ∧ skeleton bs' = skeleton bs := by
  rw [skeleton_append, skeleton, skeleton, skeleton,
    List.filter_cons_of_pos hc] at h
  obtain ⟨front, behind, rfl, hfront, hbehind⟩ :=
    List.filter_eq_append_iff.mp h
  obtain ⟨gap, rest, rfl, hgap, -, hrest⟩ :=
    List.filter_eq_cons_iff.mp hbehind
  refine ⟨front ++ gap, rest, by rw [List.append_assoc], ?_, hrest⟩
  have hnone : skeleton gap = [] :=
    skeleton_eq_nil fun d hd => by simpa using hgap d hd
  rw [skeleton_append, hnone, List.append_nil]
  exact hfront

lemma count_skeleton {c : Char} (hc : isAngleMark c = true)
    (cs : List Char) : (skeleton cs).count c = cs.count c :=
  List.count_filter hc

/-! ### Commas -/

/-- Every comma has an angle bracket open in front of it. -/
def CommasInAngles (cs : List Char) : Prop :=
  ∀ as bs, cs = as ++ ',' :: bs → as.count '>' < as.count '<'

lemma commasInAngles_iff {cs : List Char} :
    CommasInAngles cs ↔ ∀ n < cs.length, cs[n]? = some ',' →
      (cs.take n).count '>' < (cs.take n).count '<' := by
  constructor
  · intro h n hn hcomma
    refine h (cs.take n) (cs.drop (n + 1)) ?_
    rw [List.getElem?_eq_getElem hn, Option.some_inj] at hcomma
    rw [← hcomma, List.getElem_cons_drop, List.take_append_drop]
  · rintro h as bs rfl
    have := h as.length (by simp) (by simp)
    rwa [List.take_left] at this

instance (cs : List Char) : Decidable (CommasInAngles cs) :=
  decidable_of_iff _ commasInAngles_iff.symm

lemma CommasInAngles.of_skeleton {as bs : List Char}
    (h : CommasInAngles as) (heq : skeleton bs = skeleton as) :
    CommasInAngles bs := by
  rintro front behind rfl
  obtain ⟨front', behind', rfl, hfront, -⟩ :=
    exists_skeleton_split heq.symm (by decide)
  have hopen := h front' behind' rfl
  have hcount : ∀ c, isAngleMark c = true → front.count c = front'.count c :=
    fun c hc => by rw [← count_skeleton hc, ← hfront, count_skeleton hc]
  rwa [hcount '>' (by decide), hcount '<' (by decide)]

/-- How many angle brackets are open behind the text. -/
def angleDepth (cs : List Char) : Int :=
  cs.count '<' - cs.count '>'

lemma angleDepth_append (as bs : List Char) :
    angleDepth (as ++ bs) = angleDepth as + angleDepth bs := by
  rw [angleDepth, List.count_append, List.count_append, angleDepth,
    angleDepth]
  omega

lemma angleDepth_cons (c : Char) (cs : List Char) :
    angleDepth (c :: cs) = angleDepth [c] + angleDepth cs :=
  angleDepth_append [c] cs

lemma depth_after (depth : Int) (c : Char) :
    (if ['<'].contains c then depth + 1
      else if ['>'].contains c then depth - 1 else depth)
      = depth + angleDepth [c] := by
  by_cases hopen : c = '<'
  · subst hopen
    simp [angleDepth]
  by_cases hclose : c = '>'
  · subst hclose
    simp [angleDepth, Int.sub_eq_add_neg]
  simp [angleDepth, hopen, hclose]

/-- Where no comma is outside angle brackets, nothing is parted before what
follows. -/
lemma splitAtDepth_append (depth : Int) {as : List Char}
    (h : ∀ front back, as = front ++ ',' :: back →
      0 < depth + angleDepth front) (bs : List Char) :
    ∃ p ps, splitAtDepth ['<'] ['>'] (depth + angleDepth as) bs = p :: ps
      ∧ splitAtDepth ['<'] ['>'] depth (as ++ bs) = (as ++ p) :: ps := by
  induction as generalizing depth with
  | nil =>
      obtain ⟨p, ps, hp⟩ := List.exists_cons_of_ne_nil
        (splitAtDepth_ne_nil ['<'] ['>'] depth bs)
      exact ⟨p, ps, by simpa [angleDepth] using hp, hp⟩
  | cons c as ih =>
      obtain ⟨p, ps, hp, hpieces⟩ := ih (depth + angleDepth [c])
        fun front back heq => by
          have := h (c :: front) back (by rw [heq]; rfl)
          rwa [angleDepth_cons, ← Int.add_assoc] at this
      have hcomma : ¬ (c = ',' ∧ depth + angleDepth [c] = 0) := by
        rintro ⟨rfl, hzero⟩
        have := h [] as rfl
        simp [angleDepth] at this hzero
        omega
      refine ⟨p, ps, ?_, ?_⟩
      · rwa [angleDepth_cons, ← Int.add_assoc]
      · rw [List.cons_append, splitAtDepth, depth_after, if_neg hcomma,
          hpieces]
        rfl

/-- Then all of the text is one piece. -/
lemma splitAtDepth_of_commasInAngles {cs : List Char}
    (h : CommasInAngles cs) : splitAtDepth ['<'] ['>'] 0 cs = [cs] := by
  obtain ⟨p, ps, hp, hpieces⟩ := splitAtDepth_append 0
    (fun front back heq => by
      have := h front back heq
      rw [angleDepth]
      omega) []
  obtain ⟨rfl, rfl⟩ := List.cons.inj hp
  rwa [List.append_nil] at hpieces

/-- It is a single argument. -/
theorem topLevelParts_of_commasInAngles {cs : List Char}
    (h : CommasInAngles cs) (hne : trim cs ≠ []) :
    topLevelParts ['<'] ['>'] cs = [trim cs] := by
  rw [topLevelParts, splitAtDepth_of_commasInAngles h]
  simpa using hne

/-! ### Groups of angle brackets -/

/-- A type with one group of angle brackets has its name in front of them
and its arguments within. -/
theorem splitGeneric_group {front inner back : List Char}
    (hfront : '<' ∉ front) (hback : '>' ∉ back) :
    splitGeneric (front ++ '<' :: (inner ++ '>' :: back))
      = (trim front, topLevelParts ['<'] ['>'] inner) := by
  have hclosed : (inner ++ '>' :: back).reverse.dropWhile (· ≠ '>')
      = '>' :: inner.reverse := by
    rw [List.reverse_append, List.reverse_cons, List.append_assoc,
      List.singleton_append, dropWhile_ne_append (by simpa using hback)]
  rw [splitGeneric, dropWhile_ne_append hfront, if_pos (by simp),
    takeWhile_ne_append hfront, List.tail_cons, hclosed, List.tail_cons,
    List.reverse_reverse]

end HeaderBinding
