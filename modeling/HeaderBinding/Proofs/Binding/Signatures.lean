/-
Signatures of blocks are split where they were joined.

* `Balanced`: every bracket of a text is closed in it; `CommasInside`: and
  every comma stands between brackets;
* `Balanced.staysWhole_append`, `CommasInside.staysWhole`: a scanner that
  counts brackets of both kinds alike does not part such a text;
* `signatureText`: the text of a block type;
* `splitBlockSignature_signatureText`: its parts are those that it was made
  of, without the blanks around them; `void` alone is no parameter.
-/
import HeaderBinding.Proofs.Binding.BlockTexts

namespace HeaderBinding

variable {depth : Int} {c : Char} {cs rest : List Char}

/-! ### Texts with brackets -/

/-- The brackets that open a part of a type. -/
def typeOpeners : List Char := ['(', '<']

/-- The brackets that close a part of a type. -/
def typeClosers : List Char := [')', '>']

/-- Every bracket is closed, and none is closed that was not opened.  The
two kinds of brackets are not told apart. -/
inductive Balanced : List Char → Prop
  | nil : Balanced []
  | plain {c : Char} {cs : List Char} : c ∉ typeOpeners → c ∉ typeClosers →
      Balanced cs → Balanced (c :: cs)
  | group {opener closer : Char} {inner cs : List Char} :
      opener ∈ typeOpeners → closer ∈ typeClosers → Balanced inner →
      Balanced cs → Balanced (opener :: (inner ++ closer :: cs))

/-- Every bracket is closed, and every comma stands between brackets. -/
inductive CommasInside : List Char → Prop
  | nil : CommasInside []
  | plain {c : Char} {cs : List Char} : c ∉ typeOpeners → c ∉ typeClosers →
      c ≠ ',' → CommasInside cs → CommasInside (c :: cs)
  | group {opener closer : Char} {inner cs : List Char} :
      opener ∈ typeOpeners → closer ∈ typeClosers → Balanced inner →
      CommasInside cs → CommasInside (opener :: (inner ++ closer :: cs))

lemma Balanced.of_forall (h : ∀ c ∈ cs, c ∉ typeOpeners ∧ c ∉ typeClosers) :
    Balanced cs := by
  induction cs with
  | nil => exact .nil
  | cons c cs ih =>
      obtain ⟨hc, hcs⟩ := List.forall_mem_cons.mp h
      exact .plain hc.1 hc.2 (ih hcs)

lemma CommasInside.append_left (h : CommasInside rest)
    (hcs : ∀ c ∈ cs, c ∉ typeOpeners ∧ c ∉ typeClosers ∧ c ≠ ',') :
    CommasInside (cs ++ rest) := by
  induction cs with
  | nil => exact h
  | cons c cs ih =>
      obtain ⟨hc, hcs⟩ := List.forall_mem_cons.mp hcs
      exact .plain hc.1 hc.2.1 hc.2.2 (ih hcs)

/-! ### Counting brackets -/

section Depth

variable (depth) in
lemma depthAfter_of_mem_typeOpeners (hc : c ∈ typeOpeners) :
    depthAfter typeOpeners typeClosers depth c = depth + 1 :=
  if_pos (List.contains_iff_mem.mpr hc)

variable (depth) in
lemma depthAfter_of_mem_typeClosers (hc : c ∈ typeClosers) :
    depthAfter typeOpeners typeClosers depth c = depth - 1 := by
  have hopener : ∀ c ∈ typeClosers, c ∉ typeOpeners := by
    simp [typeOpeners, typeClosers]
  rw [depthAfter, if_neg (mt List.contains_iff_mem.mp (hopener c hc)),
    if_pos (List.contains_iff_mem.mpr hc)]

variable (depth) in
lemma depthAfter_of_not_mem (hopener : c ∉ typeOpeners)
    (hcloser : c ∉ typeClosers) :
    depthAfter typeOpeners typeClosers depth c = depth := by
  rw [depthAfter, if_neg (mt List.contains_iff_mem.mp hopener),
    if_neg (mt List.contains_iff_mem.mp hcloser)]

/-- Between brackets nothing is parted: behind the text the depth is as
before. -/
lemma Balanced.staysWhole_append (h : Balanced cs) (hdepth : 0 < depth)
    (hrest : StaysWhole typeOpeners typeClosers depth rest) :
    StaysWhole typeOpeners typeClosers depth (cs ++ rest) := by
  induction h generalizing depth rest with
  | nil => exact hrest
  | plain hopener hcloser _ ih =>
      have hsame := depthAfter_of_not_mem depth hopener hcloser
      refine ⟨fun hc => ?_, ?_⟩
      · omega
      · rw [hsame]
        exact ih hdepth hrest
  | @group opener closer inner cs hopener hcloser _ _ ihinner ihcs =>
      have hup := depthAfter_of_mem_typeOpeners depth hopener
      have hdown := depthAfter_of_mem_typeClosers (depth + 1) hcloser
      rw [Int.add_sub_cancel] at hdown
      rw [List.cons_append, List.append_assoc, List.cons_append]
      refine ⟨fun hc => by omega, ?_⟩
      rw [hup]
      refine ihinner (by omega) ⟨fun hc => by omega, ?_⟩
      rw [hdown]
      exact ihcs hdepth hrest

/-- A text with its commas between brackets is not parted. -/
lemma CommasInside.staysWhole (h : CommasInside cs) :
    StaysWhole typeOpeners typeClosers 0 cs := by
  induction h with
  | nil => rfl
  | plain hopener hcloser hcomma _ ih =>
      refine ⟨fun hc => hcomma hc.1, ?_⟩
      rw [depthAfter_of_not_mem 0 hopener hcloser]
      exact ih
  | @group opener closer inner cs hopener hcloser hinner _ ih =>
      have hdown := depthAfter_of_mem_typeClosers 1 hcloser
      have hcomma : ∀ c ∈ typeClosers, c ≠ ',' := by
        simp [typeClosers]
      refine ⟨fun hc => ?_, ?_⟩
      · rw [depthAfter_of_mem_typeOpeners 0 hopener] at hc
        exact absurd hc.2 (by decide)
      · rw [depthAfter_of_mem_typeOpeners 0 hopener]
        refine hinner.staysWhole_append (by decide)
          ⟨fun hc => hcomma closer hcloser hc.1, ?_⟩
        rw [Int.zero_add, hdown]
        exact ih

end Depth

/-! ### Signatures -/

/-- The text of a block type: what it returns, the mark of a block, and its
parameters in parentheses with commas between them. -/
def signatureText (returned : List Char) (ps : List (List Char)) :
    List Char :=
  returned ++ " (^)(".toList ++ ", ".toList.intercalate ps ++ [')']

/-- A parameter may be written so: there is something in it, its brackets are
closed, and it has no comma outside of them. -/
structure IsParameterText (p : List Char) : Prop where
  not_blank : ∃ c ∈ p, isBlank c = false
  commasInside : CommasInside p

/-- Of a text that is not blank something is left without the blanks around
it. -/
lemma trim_ne_nil (h : ∃ c ∈ cs, isBlank c = false) : trim cs ≠ [] := by
  obtain ⟨front, back, hcs, hfront, hback⟩ := exists_trim cs
  intro hnil
  rw [hnil, List.append_nil] at hcs
  obtain ⟨c, hc, hsome⟩ := h
  rw [hcs, List.mem_append] at hc
  rcases hc with hc | hc
  · rw [hfront c hc] at hsome
    cases hsome
  · rw [hback c hc] at hsome
    cases hsome

/-- **Signatures are split where they were joined**: into what is returned
and the parameters, without the blanks around each.  The word `void`, if it
stands alone between the parentheses, is no parameter, with or without
blanks. -/
theorem splitBlockSignature_signatureText {returned : List Char}
    (hreturned : ¬ blockMark <:+: returned) {ps : List (List Char)}
    (hps : ∀ p ∈ ps, IsParameterText p) :
    splitBlockSignature (signatureText returned ps)
      = (trim returned,
        if ps.map trim = ["void".toList] then [] else ps.map trim) :=
  splitBlockSignature_append hreturned fun p hp =>
    ⟨(hps p hp).commasInside.staysWhole, trim_ne_nil (hps p hp).not_blank⟩

/-- A parameter that is a block itself, between blanks. -/
theorem splitBlockSignature_signatureText_block :
    ¬ blockMark <:+: "BOOL ".toList
      ∧ IsParameterText " void (^)(int, id) done ".toList
      ∧ splitBlockSignature
          (signatureText "BOOL ".toList [" void (^)(int, id) done ".toList])
        = ("BOOL".toList, ["void (^)(int, id) done".toList]) := by
  have hmark : ¬ blockMark <:+: "BOOL ".toList := by decide
  have hlast : CommasInside (" done ".toList ++ []) :=
    CommasInside.nil.append_left (by simp [typeOpeners, typeClosers])
  have hmarkText : Balanced ['^'] :=
    .of_forall (by simp [typeOpeners, typeClosers])
  have hinner : Balanced "int, id".toList :=
    .of_forall (by simp [typeOpeners, typeClosers])
  have hgroups : CommasInside ('(' :: (['^'] ++ ')' ::
      ('(' :: ("int, id".toList ++ ')' :: (" done ".toList ++ []))))) :=
    .group (by decide) (by decide) hmarkText
      (.group (by decide) (by decide) hinner hlast)
  have hp : IsParameterText " void (^)(int, id) done ".toList := by
    have hplain : ∀ c ∈ " void ".toList,
        c ∉ typeOpeners ∧ c ∉ typeClosers ∧ c ≠ ',' := by
      simp [typeOpeners, typeClosers]
    exact ⟨⟨'v', by decide, by decide⟩, hgroups.append_left hplain⟩
  refine ⟨hmark, hp, ?_⟩
  rw [splitBlockSignature_signatureText hmark
    (List.forall_mem_singleton.mpr hp)]
  decide +kernel

/-- Blanks around the word do not make a parameter of it: what is split is
not always what was joined, although the text is not `void`. -/
theorem not_splitBlockSignature_void :
    ¬ ∀ (returned : List Char) (ps : List (List Char)),
      ¬ blockMark <:+: returned → (∀ p ∈ ps, IsParameterText p) →
      ps ≠ ["void".toList] →
      splitBlockSignature (signatureText returned ps)
        = (trim returned, ps.map trim) := by
  intro h
  have hplain : ∀ c ∈ " void".toList,
      c ∉ typeOpeners ∧ c ∉ typeClosers ∧ c ≠ ',' := by
    simp [typeOpeners, typeClosers]
  have hp : IsParameterText " void".toList :=
    ⟨⟨'v', by decide, by decide⟩, CommasInside.nil.append_left hplain⟩
  have hsplit := h "void".toList [" void".toList] (by decide)
    (List.forall_mem_singleton.mpr hp) (by decide)
  revert hsplit
  decide +kernel

end HeaderBinding
