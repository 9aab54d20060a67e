/-
How a C# type is built up by the steps of the map.

* `mapTrace`: the type that the steps end in, how often `out` was put
  before it and how often an array behind it; `mapType_eq_text`: together
  they are the C# type;
* `mapStep_kept`: from a type without the word `unsafe` a step leads to
  such a type, or ends in one without modifiers or in a marked pointer;
* `mapTrace_kept`: so does the whole map.
-/
import HeaderBinding.Proofs.Mapping.Words

namespace HeaderBinding

/-! ### Traces -/

/-- The type behind so many words `out`. -/
def withOuts : Nat → String → String
  | 0, s => s
  | n + 1, s => "out " ++ withOuts n s

/-- The type in front of so many pairs of brackets. -/
def withArrays : Nat → String → String
  | 0, s => s
  | n + 1, s => withArrays n s ++ "[]"

/-- What the steps of the map lead to. -/
structure Trace where
  /-- The number of steps from a pointer to a pointer. -/
  outs : Nat := 0
  /-- The type that the last step ends in. -/
  core : String := ""
  /-- The number of steps to the elements of an array. -/
  arrays : Nat := 0
deriving DecidableEq, Repr

/-- The C# type. -/
def Trace.text (t : Trace) : String :=
  withOuts t.outs (withArrays t.arrays t.core)

/-- The trace with what one more step puts before and behind the type. -/
def Trace.wrap (before behind : String) (t : Trace) : Trace :=
  { t with
    outs := t.outs + if before = "out " then 1 else 0
    arrays := t.arrays + if behind = "[]" then 1 else 0 }

/-- The trace of at most so many steps. -/
def traceWithin (ctx : TypeContext) (self? : Option String) :
    Nat → List Char → Option Trace
  | 0, _ => none
  | steps + 1, cs =>
    match mapStep ctx self? cs with
    | .done text => some { core := text }
    | .again before type behind =>
      (traceWithin ctx self? steps type).map (Trace.wrap before behind)

/-- The trace of a type; that of a type that leads to itself is empty. -/
def mapTrace (ctx : TypeContext) (self? : Option String)
    (type : String) : Trace :=
  (traceWithin ctx self? (stepBound ctx type.toList) type.toList).getD {}

/-- A step from a pointer to a pointer puts `out` before the type, one to
the elements of an array brackets behind it, and any other nothing. -/
def MapStep.Shaped : MapStep → Prop
  | .done _ => True
  | .again before _ behind =>
    (before = "out " ∧ behind = "")
      ∨ (before = "" ∧ (behind = "" ∨ behind = "[]"))

lemma mapGeneric_shaped (ctx : TypeContext) (base : List Char)
    (depth : Nat) : (mapGeneric ctx base depth).Shaped := by
  unfold mapGeneric
  simp only
  repeat' split
  all_goals simp [MapStep.Shaped]

lemma mapNamed_shaped (ctx : TypeContext) (self? : Option String)
    (hadConst : Bool) (base : List Char) (depth : Nat) :
    (mapNamed ctx self? hadConst base depth).Shaped := by
  unfold mapNamed
  simp only
  repeat' split
  all_goals first | trivial | exact mapGeneric_shaped ctx base depth

lemma mapAlias?_shaped {ctx : TypeContext} {hadConst : Bool}
    {base : List Char} {depth : Nat} {step : MapStep}
    (h : mapAlias? ctx hadConst base depth = some step) :
    step.Shaped := by
  unfold mapAlias? at h
  simp only at h
  repeat' split at h
  all_goals cases h
  · trivial
  · exact .inr ⟨rfl, .inl rfl⟩
  · exact .inr ⟨rfl, .inl rfl⟩

lemma mapPointer_shaped (ctx : TypeContext) (self? : Option String)
    (hadConst : Bool) (base : List Char) (depth : Nat) :
    (mapPointer ctx self? hadConst base depth).Shaped := by
  unfold mapPointer
  simp only
  split
  · exact .inl ⟨rfl, rfl⟩
  split
  · trivial
  split
  · trivial
  split
  · rename_i h
    exact mapAlias?_shaped h
  · exact mapNamed_shaped ..

lemma mapStep_shaped (ctx : TypeContext) (self? : Option String)
    (cs : List Char) : (mapStep ctx self? cs).Shaped := by
  unfold mapStep
  simp only
  split
  · trivial
  split
  · trivial
  split
  · trivial
  split
  · trivial
  · exact mapPointer_shaped ..

/-! ### Texts of traces -/

lemma withOuts_append (n : Nat) (s t : String) :
    withOuts n s ++ t = withOuts n (s ++ t) := by
  induction n with
  | zero => rfl
  | succ n ih => rw [withOuts, withOuts, String.append_assoc, ih]

/-- A step puts around the text what it puts around the type. -/
lemma Trace.text_wrap {before behind : String} {type : List Char}
    (h : (MapStep.again before type behind).Shaped) (t : Trace) :
    (t.wrap before behind).text = before ++ t.text ++ behind := by
  rcases h with ⟨rfl, rfl⟩ | ⟨rfl, rfl | rfl⟩
  · rw [String.append_empty]
    rfl
  · rw [String.append_empty, String.empty_append]
    rfl
  · rw [String.empty_append, Trace.text, Trace.text, withOuts_append]
    rfl

theorem mapWithin_eq (ctx : TypeContext) (self? : Option String)
    (steps : Nat) (cs : List Char) :
    mapWithin ctx self? steps cs
      = (traceWithin ctx self? steps cs).map Trace.text := by
  induction steps generalizing cs with
  | zero => rfl
  | succ steps ih =>
      have hshaped := mapStep_shaped ctx self? cs
      rw [mapWithin, traceWithin]
      cases hstep : mapStep ctx self? cs with
      | done text => rfl
      | again before type behind =>
          rw [hstep] at hshaped
          simp only [ih, Option.map_map]
          congr 1
          funext t
          exact (Trace.text_wrap hshaped t).symm

/-- The C# type is the text of the trace. -/
theorem mapType_eq_text (ctx : TypeContext) (self? : Option String)
    (type : String) :
    mapType ctx self? type = (mapTrace ctx self? type).text := by
  rw [mapType, mapType?, mapTrace, mapWithin_eq]
  cases traceWithin ctx self? (stepBound ctx type.toList) type.toList <;>
    rfl

/-! ### Words on the way -/

/-- The mark of types that are not safe is no word of the text. -/
def Unmarked (cs : List Char) : Prop :=
  "unsafe".toList ∉ wordsIn cs

/-- No modifier is a word of the text. -/
def Bare (cs : List Char) : Prop :=
  "unsafe".toList ∉ wordsIn cs ∧ "out".toList ∉ wordsIn cs

instance (cs : List Char) : Decidable (Unmarked cs) :=
  inferInstanceAs (Decidable (_ ∉ _))

instance (cs : List Char) : Decidable (Bare cs) :=
  inferInstanceAs (Decidable (_ ∧ _))

lemma Unmarked.mono {as bs : List Char} (h : Unmarked bs)
    (hsub : wordsIn as ⊆ wordsIn bs) : Unmarked as :=
  fun hin => h (hsub hin)

lemma Bare.mono {as bs : List Char} (h : Bare bs)
    (hsub : wordsIn as ⊆ wordsIn bs) : Bare as :=
  ⟨fun hin => h.1 (hsub hin), fun hin => h.2 (hsub hin)⟩

lemma Bare.unmarked {cs : List Char} (h : Bare cs) : Unmarked cs := h.1

/-- A gap parts names without modifiers. -/
lemma Bare.append_gap_append {a gap b : String} (ha : Bare a.toList)
    (hgap : IsGap gap.toList) (hne : gap.toList ≠ [])
    (hb : Bare b.toList) : Bare (a ++ gap ++ b).toList := by
  rw [String.toList_append, String.toList_append]
  obtain ⟨c, cs, heq⟩ := List.exists_cons_of_ne_nil hne
  rw [heq] at hgap ⊢
  obtain ⟨hc, hcs⟩ := List.forall_mem_cons.mp hgap
  rw [List.append_assoc, List.cons_append, Bare,
    wordsIn_append_cons _ hc, wordsIn_gap_append hcs, List.mem_append,
    List.mem_append]
  exact ⟨not_or.mpr ⟨ha.1, hb.1⟩, not_or.mpr ⟨ha.2, hb.2⟩⟩

/-- A gap at its end does not matter to a name. -/
lemma Bare.append_gap {a gap : String} (ha : Bare a.toList)
    (hgap : IsGap gap.toList) : Bare (a ++ gap).toList := by
  rw [String.toList_append]
  refine ha.mono ?_
  rw [wordsIn_append_gap _ hgap]
  exact List.Subset.refl _

lemma out_mem_strippedWords : "out".toList ∈ strippedWords := by
  decide

/-- The name of a type has no modifier. -/
lemma Unmarked.baseOf {cs : List Char} (h : Unmarked cs) :
    Bare (baseOf cs) :=
  ⟨fun hin => h (wordsIn_baseOf hin).1,
    fun hout => (wordsIn_baseOf hout).2 out_mem_strippedWords⟩

/-- The names that the map may put in for others have no modifiers. -/
structure TypeContext.Unmarking (ctx : TypeContext)
    (self? : Option String) : Prop where
  aliases : ∀ entry ∈ ctx.aliases, Unmarked entry.2.toList
  self : ∀ name ∈ self?, Bare name.toList

/-- From a type without the mark a step leads to one without it, or ends
in a type without modifiers or in a marked pointer. -/
inductive MapStep.Kept : MapStep → Prop
  | bare {text : String} (h : Bare text.toList) : Kept (.done text)
  | pointer {target : String} (h : Bare target.toList) :
    Kept (.done (unsafePointer target))
  | again {before behind : String} {type : List Char}
    (h : Unmarked type) : Kept (.again before type behind)

section Kept

variable {ctx : TypeContext} {self? : Option String}

/-- In front of a name without modifiers a word of its own keeps it so. -/
lemma Bare.word_append {v cs : List Char} (hv : IsWord v) (h : Bare cs)
    (hun : ¬ v <+: "unsafe".toList) (hout : ¬ v <+: "out".toList) :
    Bare (v ++ cs) :=
  ⟨fun hin => (mem_wordsIn_word_append hv hin).elim hun h.1,
    fun hin => (mem_wordsIn_word_append hv hin).elim hout h.2⟩

/-- So does another end of its last word. -/
lemma Bare.append_word {as u v : List Char} (hu : IsWord u)
    (hv : IsWord v) (h : Bare (as ++ u)) (hun : ¬ v <:+ "unsafe".toList)
    (hout : ¬ v <:+ "out".toList) : Bare (as ++ v) :=
  ⟨fun hin => (mem_wordsIn_append_word hu hv hin).elim hun h.1,
    fun hin => (mem_wordsIn_append_word hu hv hin).elim hout h.2⟩

/-- A name either stays as it is or gives up `Block` at its end. -/
lemma delegateName_cases (name : String) :
    delegateName name = name
      ∨ ∃ as, name.toList = as ++ "Block".toList ∧ as ≠ []
        ∧ delegateName name = String.ofList as ++ "Handler" := by
  unfold delegateName
  simp only
  generalize "Block".toList = suffix
  split
  · rename_i h
    obtain ⟨as, has⟩ := List.isSuffixOf_iff_suffix.mp h.1
    have hlen := h.2
    rw [← has, List.length_append] at hlen
    refine .inr ⟨as, has.symm, List.ne_nil_of_length_pos (by omega), ?_⟩
    rw [← has, List.length_append, Nat.add_sub_cancel, List.take_left]
  · exact .inl rfl

lemma bare_delegateName {name : String} (h : Bare name.toList) :
    Bare (delegateName name).toList := by
  rcases delegateName_cases name with heq | ⟨as, has, -, heq⟩
  · rwa [heq]
  · rw [has] at h
    rw [heq, String.toList_append, String.toList_ofList (l := as)]
    exact h.append_word (by decide) (by decide) (by decide) (by decide)

lemma bare_protocolInterface {arg : List Char} (h : Unmarked arg) :
    Bare (protocolInterface arg).toList := by
  rw [protocolInterface, String.toList_append,
    String.toList_ofList (l := baseOf arg)]
  exact h.baseOf.word_append (by decide) (by decide) (by decide)

/-- What an alias stands for is as good as the aliases. -/
lemma unmarked_resolveText (hctx : ctx.Unmarking self?) {name : String}
    (h : Unmarked name.toList) :
    Unmarked (ctx.resolveText name).toList := fun hin =>
  (wordsIn_resolveText hin).elim h
    fun ⟨entry, hentry, hw⟩ => hctx.aliases entry hentry hw

/-- The targets of classes have no modifiers. -/
lemma bare_objectTypes {name target : String}
    (h : objectTypes.lookup name = some target) : Bare target.toList :=
  (by decide +kernel : ∀ e ∈ objectTypes, Bare e.2.toList) _
    (mem_of_lookup h)

/-- The targets of values have no modifiers. -/
lemma bare_primitiveTypes {name target : String}
    (h : primitiveTypes.lookup name = some target) : Bare target.toList :=
  (by decide +kernel : ∀ e ∈ primitiveTypes, Bare e.2.toList) _
    (mem_of_lookup h)

lemma bare_elementClass (hctx : ctx.Unmarking self?) {arg : List Char}
    (h : Unmarked arg) : Bare (elementClass ctx arg).toList := by
  have hbase := h.baseOf
  unfold elementClass
  simp only
  split
  · decide
  generalize hname : String.ofList (if (baseOf arg).contains '<' then
    (splitGeneric (baseOf arg)).1 else baseOf arg) = name
  have hn : Bare name.toList := by
    rw [← hname, String.toList_ofList]
    split
    · exact hbase.mono (wordsIn_splitGeneric_fst _)
    · exact hbase
  generalize hfinal : (if ctx.isAlias name then ctx.resolve name
    else name) = final
  have hf : Bare final.toList := by
    rw [← hfinal]
    split
    · rw [TypeContext.resolve, baseTypeName, String.toList_ofList]
      exact (unmarked_resolveText hctx hn.unmarked).baseOf
    · exact hn
  split
  · decide
  split
  · decide
  cases hlookup : objectTypes.lookup final with
  | none => exact hf
  | some target => exact bare_objectTypes hlookup

lemma mapGeneric_kept (hctx : ctx.Unmarking self?) {base : List Char}
    (h : Bare base) (depth : Nat) : (mapGeneric ctx base depth).Kept := by
  have hname : Bare (splitGeneric base).1 :=
    h.mono (wordsIn_splitGeneric_fst base)
  have hstring : Bare (String.ofList (splitGeneric base).1).toList := by
    rwa [String.toList_ofList]
  have hargs : ∀ arg ∈ (splitGeneric base).2, Unmarked arg := fun arg harg =>
    h.unmarked.mono (wordsIn_splitGeneric_snd harg)
  have hplain : (MapStep.again "" ((splitGeneric base).1
      ++ if depth = 0 then [] else [' ', '*']) "").Kept := by
    refine .again (hname.unmarked.mono ?_)
    rw [wordsIn_append_gap]
    · exact List.Subset.refl _
    · split
      · exact fun _ hc => nomatch hc
      · decide
  unfold mapGeneric
  simp only
  cases hparts : (splitGeneric base).2 with
  | nil =>
      simp only
      split
      · exact .bare (by decide)
      split
      · exact .bare (by decide)
      · exact hplain
  | cons arg more =>
      rw [hparts] at hargs
      have harg := hargs arg List.mem_cons_self
      simp only
      split
      · exact .bare (bare_protocolInterface harg)
      split
      · exact .bare (by decide)
      split
      · exact .again harg
      split
      · rename_i hkeyed
        obtain ⟨value, rfl⟩ := List.length_eq_one_iff.mp hkeyed.2
        have hvalue := hargs value
          (List.mem_cons_of_mem _ List.mem_cons_self)
        refine .bare (Bare.append_gap ?_ (by decide))
        refine Bare.append_gap_append ?_ (by decide) (by decide)
          (bare_elementClass hctx hvalue)
        exact Bare.append_gap_append hstring (by decide) (by decide)
          (bare_elementClass hctx harg)
      split
      · refine .bare (Bare.append_gap ?_ (by decide))
        exact Bare.append_gap_append hstring (by decide) (by decide)
          (bare_elementClass hctx harg)
      split
      · exact .bare (bare_protocolInterface harg)
      · exact hplain

lemma mapNamed_kept (hctx : ctx.Unmarking self?) {base : List Char}
    (h : Bare base) (hadConst : Bool) (depth : Nat) :
    (mapNamed ctx self? hadConst base depth).Kept := by
  have hname : Bare (String.ofList base).toList := by
    rwa [String.toList_ofList]
  unfold mapNamed
  simp only
  split
  · refine .bare ?_
    split
    · rename_i self
      split
      · decide
      · exact hctx.self self rfl
    · decide
  split
  · split
    · exact .bare (by decide)
    · exact .pointer (by decide)
  split
  · exact .bare (by decide)
  split
  · rename_i target hlookup
    split
    · exact .pointer (bare_primitiveTypes hlookup)
    · exact .bare (bare_primitiveTypes hlookup)
  split
  · rename_i target hlookup
    exact .bare (bare_objectTypes hlookup)
  split
  · exact mapGeneric_kept hctx h depth
  split
  · exact .pointer hname
  · exact .bare (bare_delegateName hname)

lemma Unmarked.pointerTo {base : List Char} (h : Unmarked base)
    (depth : Nat) : Unmarked (pointerTo base depth) := by
  rw [Unmarked, wordsIn_pointerTo]
  exact h

/-- A type that is constant has only that word more. -/
lemma Unmarked.const {cs : List Char} (h : Unmarked cs) :
    Unmarked ("const ".toList ++ cs) := by
  have hsplit : "const ".toList = "const".toList ++ [' '] := by decide
  rw [Unmarked, hsplit, List.append_assoc, List.singleton_append,
    wordsIn_append_cons _ (by decide), List.mem_append]
  exact not_or.mpr ⟨by decide, h⟩

lemma mapAlias?_kept (hctx : ctx.Unmarking self?) {base : List Char}
    (h : Bare base) {hadConst : Bool} {depth : Nat} {step : MapStep}
    (hstep : mapAlias? ctx hadConst base depth = some step) :
    step.Kept := by
  have htext : Unmarked (ctx.resolveText (String.ofList base)).toList := by
    refine unmarked_resolveText hctx ?_
    rw [String.toList_ofList]
    exact h.unmarked
  have hbase := htext.baseOf.unmarked
  rw [baseOf] at hbase
  unfold mapAlias? at hstep
  simp only at hstep
  generalize (ctx.resolveText (String.ofList base)).toList = text
    at hbase hstep
  split at hstep
  · split at hstep
    · cases hstep
    split at hstep
    · cases hstep
      exact .bare (by decide)
    · obtain rfl := Option.some.inj hstep
      refine .again ?_
      split
      · exact (hbase.pointerTo _).const
      · exact hbase.pointerTo _
  · cases hstep

lemma mapPointer_kept (hctx : ctx.Unmarking self?) {base : List Char}
    (h : Bare base) (hadConst : Bool) (depth : Nat) :
    (mapPointer ctx self? hadConst base depth).Kept := by
  unfold mapPointer
  simp only
  split
  · exact .again (h.unmarked.pointerTo 1)
  split
  · exact .bare (bare_delegateName (by rwa [String.toList_ofList]))
  split
  · exact .bare (by decide)
  split
  · rename_i step hstep
    exact mapAlias?_kept hctx h hstep
  · exact mapNamed_kept hctx h hadConst depth

/-- One step keeps the mark out of what it leads to. -/
theorem mapStep_kept (hctx : ctx.Unmarking self?) {cs : List Char}
    (h : Unmarked cs) : (mapStep ctx self? cs).Kept := by
  unfold mapStep
  simp only
  split
  · exact .bare (by decide)
  split
  · exact .bare (by decide)
  split
  · exact .bare (by decide)
  split
  · exact .bare (by decide)
  · exact mapPointer_kept hctx h.baseOf _ _

/-- The type that the steps end in has no modifier, or is a pointer that
is marked in front. -/
def Trace.Kept (t : Trace) : Prop :=
  Bare t.core.toList
    ∨ ∃ target, Bare target.toList ∧ t.core = unsafePointer target

lemma traceWithin_kept (hctx : ctx.Unmarking self?) {steps : Nat}
    {cs : List Char} (h : Unmarked cs) {t : Trace}
    (ht : traceWithin ctx self? steps cs = some t) : t.Kept := by
  induction steps generalizing cs t with
  | zero => cases ht
  | succ steps ih =>
      have hkept := mapStep_kept hctx h
      rw [traceWithin] at ht
      cases hstep : mapStep ctx self? cs with
      | done text =>
          rw [hstep] at ht hkept
          cases ht
          cases hkept with
          | bare h => exact .inl h
          | pointer h => exact .inr ⟨_, h, rfl⟩
      | again before type behind =>
          rw [hstep] at ht hkept
          obtain ⟨inner, hinner, rfl⟩ := Option.map_eq_some_iff.mp ht
          cases hkept with
          | again h =>
              have hin : inner.Kept := ih h hinner
              exact hin

/-- The whole map keeps the mark out of what it ends in. -/
theorem mapTrace_kept (hctx : ctx.Unmarking self?) {type : String}
    (h : Unmarked type.toList) : (mapTrace ctx self? type).Kept := by
  rw [mapTrace]
  cases ht : traceWithin ctx self? (stepBound ctx type.toList)
      type.toList with
  | none => exact .inl (by decide)
  | some t => exact traceWithin_kept hctx h ht

end Kept

end HeaderBinding
