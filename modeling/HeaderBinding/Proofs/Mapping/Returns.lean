/-
Types whose map comes to an end.

* `chase_baseTypeName`: what an alias stands for in the end stands for
  itself, if it is an alias at all;
* `TypeContext.Graded`: a rank for the aliases that does not rise along
  their texts, and falls along some of them;
* `AliasLeads.below_or_settled`: the text of an alias has names of a lower
  rank only, or there is nothing left to resolve in it;
* `returns_of_graded`: if the rank falls where a text has angle brackets or
  two tags, both questions about a nested type are answered;
* `not_returns_twiceTagged`: two tags can hide a cycle.
-/
import HeaderBinding.Proofs.Mapping.Answers
import HeaderBinding.Proofs.Mapping.Chains
import HeaderBinding.Proofs.Mapping.Generic
import HeaderBinding.Proofs.Mapping.Qualifiers

namespace HeaderBinding

/-! ### Ends of chains -/

section Chase

variable {table : List (String × String)} {name : String}

/-- A chain that does not end at a name, and does not start there, does not
need its alias. -/
lemma chase_of_chase_withoutAlias {current text : String}
    (hne : current ≠ name)
    (hend : baseTypeName (chase (withoutAlias name table) current text)
      ≠ name) :
    chase (withoutAlias name table) current text
      = chase table current text := by
  induction table, current, text using chase.induct with
  | case1 table current text hnone =>
      rw [chase_of_lookup_eq_none hnone]
      rw [← lookup_withoutAlias_of_ne hne] at hnone
      exact chase_of_lookup_eq_none hnone text
  | case2 table current text target hsome ih =>
      have hsome' : (withoutAlias name table).lookup current = some target := by
        rwa [lookup_withoutAlias_of_ne hne]
      rw [chase_of_lookup_eq_some hsome', withoutAlias_comm] at hend ⊢
      rw [chase_of_lookup_eq_some hsome]
      refine ih ?_ hend
      intro heq
      -- the chain would end in front of the name
      have hnone := lookup_withoutAlias_self name (withoutAlias current table)
      rw [heq, chase_of_lookup_eq_none hnone] at hend
      exact hend heq

/-- The name at the end of a chain, if it is an alias, leads there
itself. -/
theorem chase_baseTypeName {current text : String}
    (hcurrent : (table.lookup current).isSome)
    (hagain : (table.lookup
      (baseTypeName (chase table current text))).isSome) (text' : String) :
    chase table (baseTypeName (chase table current text)) text'
      = chase table current text := by
  induction table, current, text using chase.induct with
  | case1 table current text hnone =>
      rw [hnone] at hcurrent
      cases hcurrent
  | case2 table current text target hsome ih =>
      rw [chase_of_lookup_eq_some hsome] at hagain ⊢
      generalize hlast : chase (withoutAlias current table)
        (baseTypeName target) target = last at hagain ih ⊢
      rcases eq_or_ne (baseTypeName last) current with heq | hne
      · rw [heq, chase_of_lookup_eq_some hsome, hlast]
      rw [← lookup_withoutAlias_of_ne hne] at hagain
      have hnext : ((withoutAlias current table).lookup
          (baseTypeName target)).isSome := by
        rw [← Option.ne_none_iff_isSome]
        intro hnone
        rw [chase_of_lookup_eq_none hnone] at hlast
        rw [← hlast, hnone] at hagain
        cases hagain
      have hsame := ih hnext hagain
      rw [← chase_of_chase_withoutAlias hne (by rwa [hsame]), hsame]

end Chase

/-- The name at the end of a chain stands for what the chain ends in. -/
lemma resolveText_baseTypeName {ctx : TypeContext} {name : String}
    (halias : ctx.isAlias name = true)
    (hagain : ctx.isAlias (baseTypeName (ctx.resolveText name)) = true) :
    ctx.resolveText (baseTypeName (ctx.resolveText name))
      = ctx.resolveText name := by
  unfold TypeContext.resolveText TypeContext.isAlias at *
  exact chase_baseTypeName halias hagain _

/-! ### Ranks -/

/-- A second tag is left when the first has gone. -/
def HasTwoTags (cs : List Char) : Prop :=
  ¬ NoTag (stripQualifiers cs)

/-- The rank of an alias is an upper bound for the aliases that its text
names, and more than that where `falls` holds of the text.  The aliases
are words, and their texts nested. -/
structure TypeContext.Graded (ctx : TypeContext)
    (falls : List Char → Prop) (rank : String → Nat) : Prop where
  names : ∀ name text, ctx.aliases.lookup name = some text →
    name.toList ≠ [] ∧ IsWord name.toList
  texts : ∀ name text, ctx.aliases.lookup name = some text →
    GenericText text.toList
  le : ∀ name text, ctx.aliases.lookup name = some text →
    ∀ w ∈ wordsIn text.toList, ctx.isAlias (String.ofList w) = true →
      rank (String.ofList w) ≤ rank name
  lt : ∀ name text, ctx.aliases.lookup name = some text →
    falls text.toList →
    ∀ w ∈ wordsIn text.toList, ctx.isAlias (String.ofList w) = true →
      rank (String.ofList w) < rank name

/-- The aliases that a type names have lower ranks. -/
def Below (ctx : TypeContext) (rank : String → Nat) (r : Nat)
    (cs : List Char) : Prop :=
  ∀ w ∈ wordsIn cs, w ∉ strippedWords →
    ctx.isAlias (String.ofList w) = true → rank (String.ofList w) < r

/-- Nothing of the type is left to resolve. -/
structure Quiet (ctx : TypeContext) (cs : List Char) : Prop where
  plain : '<' ∉ cs
  resolved : ctx.isAlias (String.ofList (baseOf cs)) = true →
    baseOf (ctx.resolveText (String.ofList (baseOf cs))).toList = baseOf cs

variable {ctx : TypeContext} {self? : Option String} {rank : String → Nat}

lemma Quiet.mapStep_done {cs : List Char} (h : Quiet ctx cs)
    (hstars : starsOf cs < 2) :
    ∃ text, mapStep ctx self? cs = .done text := by
  cases hstep : mapStep ctx self? cs with
  | done text => exact ⟨text, rfl⟩
  | again before type behind =>
      rcases mapStep_again hstep with ⟨htwo, -⟩ | ⟨-, halias⟩ | ⟨-, hangle, -⟩
      · omega
      · exact absurd (h.resolved halias.1) halias.2.1
      · rw [← mem_skeleton_iff (by decide), skeleton_baseOf,
          mem_skeleton_iff (by decide)] at hangle
        exact absurd hangle h.plain

/-! ### Pointers to a name -/

lemma skeleton_pointerTo (base : List Char) (depth : Nat) :
    skeleton (pointerTo base depth) = skeleton base := by
  obtain ⟨marks, heq, hmarks⟩ := pointerTo_marks base depth
  have hnone : skeleton marks = [] := skeleton_eq_nil fun c hc =>
    isAngleMark_of_isPointerMark (hmarks c hc)
  rw [heq, skeleton_append, hnone, List.append_nil]

/-- A name without a tag in front is left of its pointers, unless the name
is a tag itself. -/
lemma baseOf_pointerTo_cases {base : List Char} (h : IsBase base)
    (hno : NoTag base) (depth : Nat) :
    baseOf (pointerTo base depth) = base
      ∨ baseOf (pointerTo base depth) = [] := by
  obtain ⟨marks, heq, hmarks⟩ := pointerTo_marks base depth
  rcases eq_or_ne base [] with rfl | hne
  · refine .inr (baseOf_eq_nil ?_)
    have hzero := bodyLength_pointerTo [] depth
    have := bodyLength_stripQualifiers (pointerTo [] depth)
    rw [hzero, show bodyLength [] = 0 from rfl] at this
    omega
  rcases dropTag_cases (pointerTo base depth) with
    ⟨hnone, -⟩ | ⟨tag, htag, hdrop⟩
  · exact .inl (baseOf_pointerTo h hne hnone).1
  refine .inr (baseOf_eq_nil ?_)
  rw [stripQualifiers_eq_dropTag h hne]
  -- the tag is longer than the name, so that only stars are left behind it
  have htagpre : tag <+: pointerTo base depth := ⟨_, hdrop.symm⟩
  obtain ⟨mid, rfl⟩ := (List.prefix_or_prefix_of_prefix htagpre
    (heq ▸ List.prefix_append base marks)).resolve_left (hno tag htag)
  rw [heq, List.append_assoc, List.append_cancel_left_eq] at hdrop
  refine bodyLength_eq_zero fun c hc => hmarks c ?_
  rw [hdrop, ← heq]
  exact List.mem_append_right _ hc

/-- A name without angle brackets and tags that does not stand for another
one. -/
structure IsSettled (ctx : TypeContext) (base : List Char) : Prop where
  isBase : IsBase base
  noTag : NoTag base
  plain : '<' ∉ base
  resolved : ctx.isAlias (String.ofList base) = true →
    baseOf (ctx.resolveText (String.ofList base)).toList = base

section Graded

variable {falls : List Char → Prop} (hctx : ctx.Graded falls rank)
include hctx

lemma TypeContext.Graded.isWord {name : String}
    (h : ctx.isAlias name = true) : name.toList ≠ [] ∧ IsWord name.toList := by
  obtain ⟨text, htext⟩ := Option.isSome_iff_exists.mp h
  exact hctx.names name text htext

/-- An alias that is the name of a type is one of its words. -/
lemma TypeContext.Graded.mem_wordsIn {cs : List Char}
    (h : ctx.isAlias (String.ofList (baseOf cs)) = true) :
    baseOf cs ∈ wordsIn cs ∧ baseOf cs ∉ strippedWords := by
  obtain ⟨hne, hword⟩ := hctx.isWord h
  rw [String.toList_ofList] at hne hword
  refine wordsIn_baseOf ?_
  rw [wordsIn_of_isWord hword, closedWord, if_neg (by simpa using hne)]
  exact List.mem_cons_self

/-- The text that an alias stands for is that of an alias of no higher
rank. -/
lemma TypeContext.Graded.exists_resolveText {name : String}
    (h : ctx.isAlias name = true) :
    ∃ last, ctx.aliases.lookup last = some (ctx.resolveText name)
      ∧ rank last ≤ rank name := by
  have hall : ∀ (table : List (String × String)) (current text : String),
      (∀ key value, table.lookup key = some value →
        ctx.aliases.lookup key = some value) →
      (table.lookup current).isSome →
      ∃ last, ctx.aliases.lookup last = some (chase table current text)
        ∧ rank last ≤ rank current := by
    intro table current text
    induction table, current, text using chase.induct with
    | case1 table current text hnone =>
        intro _ hsome
        rw [hnone] at hsome
        cases hsome
    | case2 table current text target hsome ih =>
        intro htable _
        have htarget := htable current target hsome
        rw [chase_of_lookup_eq_some hsome]
        have hrest : ∀ key value,
            (withoutAlias current table).lookup key = some value →
            ctx.aliases.lookup key = some value := by
          intro key value hkey
          rcases eq_or_ne key current with rfl | hne
          · rw [lookup_withoutAlias_self] at hkey
            cases hkey
          · rw [lookup_withoutAlias_of_ne hne] at hkey
            exact htable key value hkey
        cases hnext : (withoutAlias current table).lookup
            (baseTypeName target) with
        | none =>
            rw [chase_of_lookup_eq_none hnext]
            exact ⟨current, htarget, Nat.le_refl _⟩
        | some value =>
            obtain ⟨last, hlast, hle⟩ := ih hrest (by rw [hnext]; rfl)
            have halias : ctx.isAlias (baseTypeName target) = true := by
              rw [TypeContext.isAlias, hrest _ _ hnext]
              rfl
            exact ⟨last, hlast, hle.trans (hctx.le current target htarget _
              (hctx.mem_wordsIn halias).1 halias)⟩
  exact hall ctx.aliases name name (fun _ _ h => h) h

lemma TypeContext.Graded.isSettled_nil : IsSettled ctx [] where
  isBase := by
    have := isBase_baseOf []
    rwa [baseOf_eq_nil (by decide +kernel)] at this
  noTag := by
    unfold NoTag
    decide
  plain := List.not_mem_nil
  resolved := fun h => absurd rfl (hctx.isWord h).1

end Graded

/-- A pointer, with `const` in front of it or not. -/
def constPointer (isConst : Bool) (base : List Char) (depth : Nat) :
    List Char :=
  (if isConst then "const ".toList else []) ++ pointerTo base depth

lemma stripQualifiers_constPointer (isConst : Bool) (base : List Char)
    (depth : Nat) :
    stripQualifiers (constPointer isConst base depth)
      = stripQualifiers (pointerTo base depth) := by
  cases isConst with
  | false => rfl
  | true =>
      have hconst : "const".toList ∈ strippedWords := by decide
      exact stripQualifiers_word_append hconst _

lemma skeleton_constPointer (isConst : Bool) (base : List Char)
    (depth : Nat) :
    skeleton (constPointer isConst base depth) = skeleton base := by
  rw [← skeleton_stripQualifiers, stripQualifiers_constPointer,
    skeleton_stripQualifiers, skeleton_pointerTo]

lemma mem_wordsIn_constPointer {isConst : Bool} {base w : List Char}
    {depth : Nat} (hw : w ∈ wordsIn (constPointer isConst base depth))
    (hleft : w ∉ strippedWords) : w ∈ wordsIn base := by
  cases isConst with
  | false => rwa [constPointer, if_neg (by decide), List.nil_append,
      wordsIn_pointerTo] at hw
  | true =>
      have hsplit : constPointer true base depth
          = "const".toList ++ ' ' :: pointerTo base depth := rfl
      rw [hsplit, wordsIn_append_cons _ (by decide), wordsIn_pointerTo] at hw
      rcases List.mem_append.mp hw with hw | hw
      · have hconst : wordsIn "const".toList = ["const".toList] := by decide
        rw [hconst] at hw
        rw [List.mem_singleton.mp hw] at hleft
        exact absurd (by decide) hleft
      · exact hw

/-! ### Types with nothing to resolve -/

section Settled

variable {falls : List Char → Prop} (hctx : ctx.Graded falls rank)
  {base : List Char} (h : IsSettled ctx base)
include hctx h

lemma IsSettled.baseOf_pointerTo (depth : Nat) :
    IsSettled ctx (baseOf (pointerTo base depth)) := by
  rcases baseOf_pointerTo_cases h.isBase h.noTag depth with heq | heq
  · rwa [heq]
  · rw [heq]
    exact hctx.isSettled_nil

lemma IsSettled.quiet (isConst : Bool) (depth : Nat) :
    Quiet ctx (constPointer isConst base depth) where
  plain := by
    rw [← mem_skeleton_iff (by decide), skeleton_constPointer,
      mem_skeleton_iff (by decide)]
    exact h.plain
  resolved := by
    rw [baseOf, stripQualifiers_constPointer]
    exact (h.baseOf_pointerTo hctx depth).resolved

/-- A pointer to a settled name with one star is mapped in one step. -/
lemma IsSettled.mapStep_done :
    ∃ text, mapStep ctx self? (pointerTo base 1) = .done text := by
  have hquiet : Quiet ctx (pointerTo base 1) := h.quiet hctx false 1
  exact hquiet.mapStep_done
    (Nat.lt_succ_of_le (starsOf_pointerTo_one h.isBase))

/-- The map of a pointer to a settled name ends: it loses its stars but
one, and the name stays. -/
lemma IsSettled.ends (isConst : Bool) (depth : Nat) :
    Ends ctx self? (constPointer isConst base depth) := by
  cases hstep : mapStep ctx self? (constPointer isConst base depth) with
  | done text => exact ⟨1, text, .done hstep⟩
  | again before type behind =>
      have hstars : 2 ≤ starsOf (constPointer isConst base depth) := by
        by_contra hlt
        obtain ⟨text, htext⟩ := @Quiet.mapStep_done ctx self? _
          (h.quiet hctx isConst depth) (Nat.not_le.mp hlt)
        rw [htext] at hstep
        cases hstep
      have htype : type
          = pointerTo (baseOf (constPointer isConst base depth)) 1 := by
        rcases mapStep_again hstep with ⟨-, heq⟩ | ⟨hlt, -⟩ | ⟨hlt, -⟩
        · exact heq
        · omega
        · omega
      rw [htype, baseOf, stripQualifiers_constPointer, ← baseOf] at hstep
      obtain ⟨text, htext⟩ :=
        (h.baseOf_pointerTo hctx depth).mapStep_done hctx
      exact ⟨_, _, .again hstep (.done htext)⟩

end Settled

/-! ### Aliases -/

section Alias

variable (hctx : ctx.Graded (fun cs => '<' ∈ cs ∨ HasTwoTags cs) rank)
include hctx

/-- What an alias leads to has only aliases of lower ranks, or there is
nothing left to resolve in it. -/
theorem AliasLeads.below_or_settled {cs type : List Char} {depth : Nat}
    (h : AliasLeads ctx (baseOf cs) depth type) :
    ∃ isConst base stars, type = constPointer isConst base stars
      ∧ GenericText type
      ∧ (Below ctx rank (rank (String.ofList (baseOf cs))) type
        ∨ IsSettled ctx base) := by
  obtain ⟨halias, -, isConst, rfl⟩ := h
  obtain ⟨last, hlast, hle⟩ := hctx.exists_resolveText halias
  generalize htext :
    ctx.resolveText (String.ofList (baseOf cs)) = text at hlast ⊢
  refine ⟨isConst, _, _, rfl, (hctx.texts _ _ hlast).of_skeleton ?_, ?_⟩
  · exact (skeleton_constPointer _ _ _).trans (skeleton_baseOf _)
  by_cases hfalls : '<' ∈ text.toList ∨ HasTwoTags text.toList
  · refine .inl fun w hw hleft hname => ?_
    have hin := (wordsIn_baseOf (mem_wordsIn_constPointer hw hleft)).1
    exact Nat.lt_of_lt_of_le (hctx.lt _ _ hlast hfalls w hin hname) hle
  rw [not_or] at hfalls
  refine .inr ⟨isBase_baseOf _, ?_, ?_, fun hagain => ?_⟩
  · obtain ⟨marks, heq, -⟩ :=
      exists_splitPointers (tidy_stripQualifiers text.toList)
    intro tag htag hpre
    exact not_not.mp hfalls.2 tag htag (hpre.trans ⟨marks, heq.symm⟩)
  · rw [← mem_skeleton_iff (by decide), skeleton_baseOf,
      mem_skeleton_iff (by decide)]
    exact hfalls.1
  · have hsame := resolveText_baseTypeName halias (by rw [htext]; exact hagain)
    rw [htext] at hsame
    rw [show String.ofList (baseOf text.toList) = baseTypeName text from rfl,
      hsame]

omit hctx in
lemma Below.mono {r : Nat} {cs ds : List Char} (h : Below ctx rank r cs)
    (hwords : ∀ w ∈ wordsIn ds, w ∉ strippedWords → w ∈ wordsIn cs) :
    Below ctx rank r ds :=
  fun w hw hleft => h w (hwords w hw hleft) hleft

/-- The alias that is the name of a type has a lower rank. -/
lemma rank_lt_of_below {r : Nat} {cs type : List Char} {depth : Nat}
    (hbelow : Below ctx rank r cs)
    (h : AliasLeads ctx (baseOf cs) depth type) :
    rank (String.ofList (baseOf cs)) < r := by
  obtain ⟨hin, hleft⟩ := hctx.mem_wordsIn h.1
  exact hbelow _ hin hleft h.1

omit hctx in
/-- The name and the arguments of a nested type are nested types again,
shorter than the type, and have words of it. -/
lemma part_of_generic {cs type : List Char} {depth : Nat}
    (hgeneric : GenericText cs) (hangle : '<' ∈ baseOf cs)
    (hpart : type ∈ (splitGeneric (baseOf cs)).2
      ∨ type = pointerTo (splitGeneric (baseOf cs)).1 depth) :
    GenericText type ∧ bodyLength type < bodyLength cs
      ∧ wordsIn type ⊆ wordsIn (baseOf cs) := by
  have hle : bodyLength (baseOf cs) ≤ bodyLength cs :=
    (bodyLength_baseOf cs).elim (·.2) Nat.le_of_lt
  obtain ⟨hargs, hname⟩ := bodyLength_splitGeneric_lt hangle
  obtain ⟨hbare, hnested⟩ :=
    (hgeneric.of_skeleton (skeleton_baseOf cs)).splitGeneric hangle
  rcases hpart with harg | hpointer
  · exact ⟨hnested type harg, Nat.lt_of_lt_of_le (hargs type harg) hle,
      wordsIn_splitGeneric_snd harg⟩
  · have hlt := hname.resolve_left fun heq => by
      rw [heq] at hbare
      exact hbare.1 hangle
    rw [hpointer]
    refine ⟨.plain (hbare.of_skeleton (skeleton_pointerTo _ _)), ?_, ?_⟩
    · rw [bodyLength_pointerTo]
      exact Nat.lt_of_lt_of_le hlt hle
    · rw [wordsIn_pointerTo]
      exact wordsIn_splitGeneric_fst _

/-- The map ends: an alias leads to lower ranks or to a type with nothing to
resolve, and everything else to a type that weighs less. -/
theorem ends_of_below {r : Nat} {cs : List Char} (hgeneric : GenericText cs)
    (hbelow : Below ctx rank r cs) : Ends ctx self? cs := by
  induction r using Nat.strong_induction_on generalizing cs with
  | _ r ihrank =>
      induction hweight : stepWeight cs using Nat.strong_induction_on
        generalizing cs with
      | _ weight ihweight =>
          cases hstep : mapStep ctx self? cs with
          | done text => exact ⟨1, text, .done hstep⟩
          | again before type behind =>
              suffices hends : Ends ctx self? type by
                obtain ⟨n, text, hn⟩ := hends
                exact ⟨n + 1, _, .again hstep hn⟩
              rcases mapStep_again hstep with ⟨hstars, htype⟩ | ⟨-, halias⟩ |
                ⟨hstars, hangle, hpart⟩
              · rw [htype]
                refine ihweight _ (hweight ▸ stepWeight_pointerTo_one hstars)
                  (hgeneric.of_skeleton ?_) (hbelow.mono ?_) rfl
                · rw [skeleton_pointerTo, skeleton_baseOf]
                · rw [wordsIn_pointerTo]
                  exact fun w hw _ => (wordsIn_baseOf hw).1
              · have hlower := rank_lt_of_below hctx hbelow halias
                obtain ⟨isConst, base, stars, rfl, hnext, hlow | hsettled⟩ :=
                  halias.below_or_settled hctx
                · exact ihrank _ hlower hnext hlow
                · exact hsettled.ends hctx isConst stars
              · obtain ⟨hnext, hbody, hwords⟩ :=
                  part_of_generic hgeneric hangle hpart
                exact ihweight _ (hweight ▸ stepWeight_lt_of_bodyLength hbody)
                  hnext (hbelow.mono fun w hw _ =>
                    (wordsIn_baseOf (hwords hw)).1) rfl

end Alias

/-! ### References -/

lemma Quiet.referenceStep_done {cs : List Char} (h : Quiet ctx cs) :
    ∃ answer, referenceStep ctx cs = .done answer := by
  cases hstep : referenceStep ctx cs with
  | done answer => exact ⟨answer, rfl⟩
  | again type =>
      obtain ⟨halias, hne, -⟩ := referenceStep_again hstep
      exact absurd (h.resolved halias) hne

section Answers

variable (hctx : ctx.Graded (fun cs => '<' ∈ cs ∨ HasTwoTags cs) rank)
include hctx

/-- It is settled whether a type is a reference: an alias leads to lower
ranks or to a type with nothing to resolve. -/
theorem answers_of_below {r : Nat} {cs : List Char}
    (hbelow : Below ctx rank r cs) : Answers ctx cs := by
  induction r using Nat.strong_induction_on generalizing cs with
  | _ r ih =>
      cases hstep : referenceStep ctx cs with
      | done answer => exact ⟨1, answer, .done hstep⟩
      | again type =>
          suffices hnext : Answers ctx type by
            obtain ⟨n, answer, hn⟩ := hnext
            exact ⟨n + 1, answer, .again hstep hn⟩
          have halias := aliasLeads_of_referenceStep hstep
          have hlower := rank_lt_of_below hctx hbelow halias
          obtain ⟨isConst, base, stars, rfl, -, hlow | hsettled⟩ :=
            halias.below_or_settled hctx
          · exact ih _ hlower hlow
          · obtain ⟨answer, hanswer⟩ :=
              (hsettled.quiet hctx isConst stars).referenceStep_done
            exact ⟨1, answer, .done hanswer⟩

end Answers

lemma exists_below (cs : List Char) : ∃ r, Below ctx rank r cs := by
  refine ⟨((wordsIn cs).map fun w => rank (String.ofList w)).sum + 1,
    fun w hw _ _ => Nat.lt_succ_of_le ?_⟩
  exact List.le_sum_of_mem (List.mem_map_of_mem hw)

/-- If a rank of the aliases does not rise along their texts, and falls
where a text has angle brackets or two tags, both questions about a nested
type are answered. -/
theorem returns_of_graded
    (hctx : ctx.Graded (fun cs => '<' ∈ cs ∨ HasTwoTags cs) rank)
    {type : String} (htype : GenericText type.toList) :
    (∃ text, mapWithin ctx self? (stepBound ctx type.toList) type.toList
        = some text)
      ∧ ∃ answer, referenceWithin ctx (stepBound ctx type.toList) type.toList
        = some answer := by
  obtain ⟨r, hbelow⟩ := @exists_below ctx rank type.toList
  constructor
  · obtain ⟨n, text, hn⟩ := @ends_of_below ctx self? rank hctx r _ htype hbelow
    exact ⟨text, mapWithin_eq_some_iff.mpr ⟨n, hn.le_stepBound, hn⟩⟩
  · obtain ⟨n, answer, hn⟩ := answers_of_below hctx hbelow
    exact ⟨answer,
      referenceWithin_eq_some_iff.mpr ⟨n, hn.le_stepBound, hn⟩⟩

/-! ### Contexts entry by entry -/

/-- A rank can be checked entry by entry. -/
lemma TypeContext.Graded.of_entries {falls : List Char → Prop}
    (hnames : ∀ entry ∈ ctx.aliases,
      entry.1.toList ≠ [] ∧ IsWord entry.1.toList)
    (htexts : ∀ entry ∈ ctx.aliases, GenericText entry.2.toList)
    (hranks : ∀ entry ∈ ctx.aliases, ∀ w ∈ wordsIn entry.2.toList,
      ctx.isAlias (String.ofList w) = true →
      rank (String.ofList w) ≤ rank entry.1
        ∧ (falls entry.2.toList → rank (String.ofList w) < rank entry.1)) :
    ctx.Graded falls rank where
  names := fun _ _ h => hnames _ (mem_of_lookup h)
  texts := fun _ _ h => htexts _ (mem_of_lookup h)
  le := fun _ _ h w hw hin => (hranks _ (mem_of_lookup h) w hw hin).1
  lt := fun _ _ h hfalls w hw hin =>
    (hranks _ (mem_of_lookup h) w hw hin).2 hfalls

/-- Two names that stand for each other, and a list of names. -/
def listsAndCycles : TypeContext where
  aliases := [("Item", "struct Item"), ("List", "NSArray<Item *> *"),
    ("Left", "Right"), ("Right", "Left *")]

/-- Lists are above everything else. -/
def listRank (name : String) : Nat :=
  if name = "List" then 1 else 0

instance (cs : List Char) : Decidable (NoAngles cs) := by
  unfold NoAngles
  infer_instance

instance (cs : List Char) : Decidable (HasTwoTags cs) := by
  unfold HasTwoTags NoTag
  infer_instance

theorem returns_listsAndCycles :
    (∃ text, mapWithin listsAndCycles none
        (stepBound listsAndCycles "NSDictionary<List, Left *> *".toList)
        "NSDictionary<List, Left *> *".toList = some text)
      ∧ ∃ answer, referenceWithin listsAndCycles
        (stepBound listsAndCycles "NSDictionary<List, Left *> *".toList)
        "NSDictionary<List, Left *> *".toList = some answer := by
  have hlist : GenericText "NSArray<Item *> *".toList :=
    @GenericText.group "NSArray".toList " *".toList ["Item *".toList]
      (by decide) (by decide) fun arg harg => .plain (by
        rw [List.mem_singleton.mp harg]
        decide)
  have hctx : listsAndCycles.Graded (fun cs => '<' ∈ cs ∨ HasTwoTags cs)
      listRank := by
    refine .of_entries (by decide +kernel) (fun entry hentry => ?_)
      (by decide +kernel)
    simp only [listsAndCycles, List.mem_cons, List.not_mem_nil, or_false]
      at hentry
    rcases hentry with rfl | rfl | rfl | rfl
    · exact .plain (by decide)
    · exact hlist
    · exact .plain (by decide)
    · exact .plain (by decide)
  refine returns_of_graded hctx ?_
  exact @GenericText.group "NSDictionary".toList " *".toList
    ["List".toList, " Left *".toList] (by decide) (by decide)
    (List.forall_mem_cons.mpr ⟨.plain (by decide),
      fun arg harg => .plain (by
        rw [List.mem_singleton.mp harg]
        decide)⟩)

/-! ### Tags that hide a cycle -/

/-- A name for a structure of its own name, with the tag twice. -/
def twiceTagged : TypeContext where
  aliases := [("A", "struct struct A")]

/-- Types that lead to each other are not mapped. -/
lemma mapWithin_eq_none_of_again {types : List (List Char)}
    (h : ∀ cs ∈ types, ∃ before type behind,
      mapStep ctx self? cs = .again before type behind ∧ type ∈ types)
    {cs : List Char} (hcs : cs ∈ types) (steps : Nat) :
    mapWithin ctx self? steps cs = none := by
  induction steps generalizing cs with
  | zero => rfl
  | succ steps ih =>
      obtain ⟨before, type, behind, hstep, htype⟩ := h cs hcs
      rw [mapWithin, hstep]
      simp only [ih htype, Option.map_none]

/-- Nor is it settled whether they are references. -/
lemma referenceWithin_eq_none_of_again {types : List (List Char)}
    (h : ∀ cs ∈ types, ∃ type,
      referenceStep ctx cs = .again type ∧ type ∈ types)
    {cs : List Char} (hcs : cs ∈ types) (steps : Nat) :
    referenceWithin ctx steps cs = none := by
  induction steps generalizing cs with
  | zero => rfl
  | succ steps ih =>
      obtain ⟨type, hstep, htype⟩ := h cs hcs
      rw [referenceWithin, hstep]
      exact ih htype

/-- The alias loses one tag, and then it is met again and again. -/
theorem not_returns_twiceTagged :
    (∃ rank, twiceTagged.Graded (fun cs => '<' ∈ cs) rank)
      ∧ GenericText "A".toList
      ∧ (∀ steps, mapWithin twiceTagged none steps "A".toList = none)
      ∧ ∀ steps, referenceWithin twiceTagged steps "A".toList = none := by
  have hmap : ∀ cs ∈ ["A".toList, "struct A".toList],
      mapStep twiceTagged none cs = .again "" "struct A".toList "" := by
    decide +kernel
  have hreference : ∀ cs ∈ ["A".toList, "struct A".toList],
      referenceStep twiceTagged cs = .again "struct A".toList := by
    decide +kernel
  have hnext : "struct A".toList ∈ ["A".toList, "struct A".toList] :=
    List.mem_cons_of_mem _ List.mem_cons_self
  refine ⟨⟨fun _ => 0, .of_entries (by decide +kernel) ?_ (by decide +kernel)⟩,
    .plain (by decide), ?_, ?_⟩
  · intro entry hentry
    obtain rfl := List.mem_singleton.mp hentry
    exact .plain (by decide)
  · exact mapWithin_eq_none_of_again
      (fun cs hcs => ⟨_, _, _, hmap cs hcs, hnext⟩) List.mem_cons_self
  · exact referenceWithin_eq_none_of_again
      (fun cs hcs => ⟨_, hreference cs hcs, hnext⟩) List.mem_cons_self

end HeaderBinding
