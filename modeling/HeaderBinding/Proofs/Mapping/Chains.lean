/-
What an alias is mapped to, next to what it stands for.

* `TypeContext.Acyclic`: no alias leads back to itself;
* `chase_withoutAlias`: along such a chain no alias is missed that was met
  before, so that `resolveText_of_lookup` goes on from the first target;
* `mapStep_alias`: the step from an alias to the end of its chain;
* `mapType_alias_of_not_isAlias`, `mapType_alias_of_starless`: an alias is
  mapped like its target if that is no alias, or has no stars;
* `mapType_alias_iff`: and in no other case, as the stars of a target are
  forgotten if its name is an alias itself.
-/
import HeaderBinding.Proofs.Mapping.Names
import HeaderBinding.Proofs.Mapping.Steps

namespace HeaderBinding

/-! ### Chains -/

/-- Each alias leads to a name of a lower rank. -/
def Ranked (rank : String → Nat) (table : List (String × String)) : Prop :=
  ∀ name text, table.lookup name = some text →
    rank (baseTypeName text) < rank name

/-- No alias leads back to itself. -/
def TypeContext.Acyclic (ctx : TypeContext) : Prop :=
  ∃ rank, Ranked rank ctx.aliases

lemma lookup_withoutAlias_self (name : String)
    (table : List (String × String)) :
    (withoutAlias name table).lookup name = none := by
  rw [List.lookup_eq_none_iff]
  intro entry hentry
  have hne : entry.1 ≠ name := by simpa using (List.mem_filter.mp hentry).2
  exact bne_iff_ne.mpr hne.symm

lemma lookup_withoutAlias_of_ne {name key : String} (h : key ≠ name)
    (table : List (String × String)) :
    (withoutAlias name table).lookup key = table.lookup key := by
  induction table with
  | nil => rfl
  | cons entry table ih =>
      obtain ⟨k, text⟩ := entry
      rw [withoutAlias] at ih ⊢
      by_cases hk : k = name
      · rw [List.filter_cons_of_neg (by simpa using hk), ih,
          List.lookup_cons, beq_false_of_ne (hk ▸ h)]
      · rw [List.filter_cons_of_pos (by simpa using hk), List.lookup_cons,
          List.lookup_cons, ih]

section Ranked

variable {rank : String → Nat} {table : List (String × String)}

lemma ranked_of_forall_mem
    (h : ∀ entry ∈ table, rank (baseTypeName entry.2) < rank entry.1) :
    Ranked rank table :=
  fun name text hlookup => h (name, text) (mem_of_lookup hlookup)

lemma Ranked.withoutAlias (h : Ranked rank table) (name : String) :
    Ranked rank (withoutAlias name table) := by
  intro key text hlookup
  rcases eq_or_ne key name with rfl | hne
  · rw [lookup_withoutAlias_self] at hlookup
    cases hlookup
  · rw [lookup_withoutAlias_of_ne hne] at hlookup
    exact h key text hlookup

lemma withoutAlias_comm (name other : String)
    (table : List (String × String)) :
    withoutAlias name (withoutAlias other table)
      = withoutAlias other (withoutAlias name table) :=
  List.filter_comm _ _ _

/-- A name of a higher rank is not met on the way. -/
theorem chase_withoutAlias (h : Ranked rank table) {name current : String}
    (hlt : rank current < rank name) (text : String) :
    chase (withoutAlias name table) current text
      = chase table current text := by
  have hne : current ≠ name := by
    rintro rfl
    omega
  fun_induction chase table current text with
  | case1 table current text hnone =>
      rw [← lookup_withoutAlias_of_ne hne] at hnone
      exact chase_of_lookup_eq_none hnone text
  | case2 table current text target hsome ih =>
      have hlower := h current target hsome
      rw [← lookup_withoutAlias_of_ne hne] at hsome
      rw [chase_of_lookup_eq_some hsome, withoutAlias_comm]
      refine ih (h.withoutAlias current) (by omega) ?_
      rintro heq
      rw [heq] at hlower
      omega

/-- The end of a chain has no higher rank than its start. -/
lemma rank_chase_le (h : Ranked rank table) (text : String) :
    rank (baseTypeName (chase table (baseTypeName text) text))
      ≤ rank (baseTypeName text) := by
  generalize hcurrent : baseTypeName text = current
  fun_induction chase table current text with
  | case1 table current text hnone => rw [hcurrent]
  | case2 table current text target hsome ih =>
      have hlower := h current target hsome
      have := ih (h.withoutAlias current) rfl
      omega

end Ranked

section Resolved

variable {ctx : TypeContext} {rank : String → Nat}
  (hrank : Ranked rank ctx.aliases) {name text : String}
  (hlookup : ctx.aliases.lookup name = some text)
include hrank hlookup

/-- An alias of an alias stands for what that one stands for, and any other
for its target. -/
theorem resolveText_of_lookup :
    ctx.resolveText name = if ctx.isAlias (baseTypeName text)
      then ctx.resolveText (baseTypeName text) else text := by
  rw [TypeContext.resolveText, chase_of_lookup_eq_some hlookup,
    chase_withoutAlias hrank (hrank name text hlookup), TypeContext.isAlias]
  cases hnext : ctx.aliases.lookup (baseTypeName text) with
  | none => exact chase_of_lookup_eq_none hnext text
  | some target =>
      rw [TypeContext.resolveText, chase_of_lookup_eq_some hnext,
        chase_of_lookup_eq_some hnext]
      rfl

/-- What an alias stands for is not called like the alias. -/
lemma baseTypeName_resolveText_ne :
    baseTypeName (ctx.resolveText name) ≠ name := by
  intro heq
  have hlower := hrank name text hlookup
  have hle := rank_chase_le (hrank.withoutAlias name) text
  rw [TypeContext.resolveText, chase_of_lookup_eq_some hlookup] at heq
  rw [heq] at hle
  omega

end Resolved

/-! ### Aliases and their targets -/

/-- The text of a pointer with so many stars. -/
def pointerText (name : String) (depth : Nat) : String :=
  String.ofList (pointerTo name.toList depth)

/-- Every alias has a plain name. -/
def TypeContext.NamesPlain (ctx : TypeContext) : Prop :=
  ∀ entry ∈ ctx.aliases, IsPlainName entry.1

lemma TypeContext.NamesPlain.of_lookup {ctx : TypeContext}
    (h : ctx.NamesPlain) {name text : String}
    (hlookup : ctx.aliases.lookup name = some text) : IsPlainName name :=
  h (name, text) (mem_of_lookup hlookup)

section Alias

variable {ctx : TypeContext} {self? : Option String}

/-- An alias takes the step of the text that its chain ends in. -/
theorem mapStep_alias {rank : String → Nat}
    (hrank : Ranked rank ctx.aliases) {name text : String}
    (hlookup : ctx.aliases.lookup name = some text)
    (hplain : IsPlainName name) (hblock : name ∉ ctx.blocks)
    (hfunction : name ∉ ctx.functionPointers) {depth : Nat}
    (hdepth : depth < 2) :
    mapStep ctx self? (pointerText name depth).toList
      = targetStep false (ctx.resolveText name) depth := by
  have halias : ctx.isAlias name = true := by
    rw [TypeContext.isAlias, hlookup]
    rfl
  have hne : baseOf (ctx.resolveText name).toList ≠ name.toList := by
    intro heq
    refine baseTypeName_resolveText_ne hrank hlookup ?_
    rw [baseTypeName, heq, String.ofList_toList]
  have hstep : mapAlias? ctx false name.toList depth
      = some (targetStep false (ctx.resolveText name) depth) := by
    rw [mapAlias?_of_ne (by rwa [String.ofList_toList])
      (by rwa [String.ofList_toList]), String.ofList_toList]
  rw [pointerText, String.toList_ofList, mapStep_pointerTo hplain,
    mapPointer_of_not_callable hdepth (by rwa [String.ofList_toList])
      (by rwa [String.ofList_toList]), hstep]

/-- The step of an alias, if nothing in its target is `const`. -/
lemma targetStep_of_not_const {text : String}
    (hconst : isConstQualified text.toList = false)
    (hcallable : isBlockText text.toList = false) (depth : Nat) :
    targetStep false text depth
      = .again "" (pointerTo (baseOf text.toList)
          (depth + starsOf text.toList)) "" := by
  have hbefore : isConstQualified (text.toList.takeWhile (· ≠ '*'))
      = false := by
    rw [Bool.eq_false_iff] at hconst ⊢
    intro hin
    refine hconst ?_
    rw [isConstQualified, hasWord_iff (by decide) (by decide)] at hin ⊢
    exact wordsIn_takeWhile_ne (by decide) _ hin
  rw [targetStep, if_neg (by simp [hcallable]), hbefore, Bool.or_false,
    if_neg Bool.false_ne_true, List.nil_append]

end Alias

section Unfolded

variable {ctx : TypeContext} {self? : Option String} {rank : String → Nat}
  (hrank : Ranked rank ctx.aliases) (hnames : ctx.NamesPlain)
  {name text : String} (hlookup : ctx.aliases.lookup name = some text)
  (hblock : name ∉ ctx.blocks) (hfunction : name ∉ ctx.functionPointers)
include hrank hnames hlookup hblock hfunction

/-- An alias for a type that is no alias is mapped like that type, with the
stars of both. -/
theorem mapType_alias_of_not_isAlias
    (hbase : ctx.isAlias (baseTypeName text) = false)
    (hconst : isConstQualified text.toList = false)
    (hcallable : isBlockText text.toList = false) {depth : Nat}
    (hdepth : depth < 2) :
    mapType ctx self? (pointerText name depth)
      = mapType ctx self?
        (pointerText (baseTypeName text) (starsOf text.toList + depth)) := by
  refine mapType_of_again_bare ?_
  rw [mapStep_alias hrank hlookup (hnames.of_lookup hlookup) hblock
    hfunction hdepth, resolveText_of_lookup hrank hlookup, hbase,
    if_neg Bool.false_ne_true, targetStep_of_not_const hconst hcallable,
    pointerText, String.toList_ofList, baseTypeName, String.toList_ofList,
    Nat.add_comm]

section Chain

variable (hbase : ctx.isAlias (baseTypeName text) = true)
  (hblock' : baseTypeName text ∉ ctx.blocks)
  (hfunction' : baseTypeName text ∉ ctx.functionPointers)
include hbase hblock' hfunction'

/-- An alias of an alias takes the same step as that one. -/
lemma mapStep_alias_eq {depth : Nat} (hdepth : depth < 2) :
    mapStep ctx self? (pointerText name depth).toList
      = mapStep ctx self?
        (pointerText (baseTypeName text) depth).toList := by
  obtain ⟨target, htarget⟩ := Option.isSome_iff_exists.mp hbase
  have htext : ctx.resolveText name = ctx.resolveText (baseTypeName text) :=
    (resolveText_of_lookup hrank hlookup).trans (if_pos hbase)
  rw [mapStep_alias hrank hlookup (hnames.of_lookup hlookup) hblock
    hfunction hdepth, htext]
  exact (mapStep_alias hrank htarget (hnames.of_lookup htarget) hblock'
    hfunction' hdepth).symm

/-- An alias of an alias is mapped like that one if it adds no stars. -/
theorem mapType_alias_of_starless (hstars : starsOf text.toList = 0)
    {depth : Nat} (hdepth : depth < 2) :
    mapType ctx self? (pointerText name depth)
      = mapType ctx self?
        (pointerText (baseTypeName text) (starsOf text.toList + depth)) := by
  rw [hstars, Nat.zero_add]
  refine mapType_congr ?_
  exact mapStep_alias_eq hrank hnames hlookup hblock hfunction hbase
    hblock' hfunction' hdepth

/-- The stars that an alias of an alias adds are forgotten: the pointer to
the one is mapped like the pointer to the other, and not like a pointer to
that pointer. -/
theorem mapType_alias_ne (hstars : 1 ≤ starsOf text.toList)
    (hends : Ends ctx self? (pointerText name 1).toList) :
    mapType ctx self? (pointerText name 1)
      ≠ mapType ctx self?
        (pointerText (baseTypeName text) (starsOf text.toList + 1)) := by
  obtain ⟨target, htarget⟩ := Option.isSome_iff_exists.mp hbase
  have hplain := hnames.of_lookup htarget
  have hsame : mapStep ctx self? (pointerText name 1).toList
      = mapStep ctx self? (pointerText (baseTypeName text) 1).toList :=
    mapStep_alias_eq hrank hnames hlookup hblock hfunction hbase hblock'
      hfunction' (by decide)
  have hout : mapStep ctx self?
      (pointerText (baseTypeName text) (starsOf text.toList + 1)).toList
        = .again "out " (pointerText (baseTypeName text) 1).toList "" := by
    rw [pointerText, String.toList_ofList, mapStep_pointerTo hplain,
      mapPointer, if_pos (by omega), pointerText, String.toList_ofList]
  have hends' : Ends ctx self? (pointerText (baseTypeName text) 1).toList :=
    (ends_congr hsame).mp hends
  rw [mapType_of_again hout hends', mapType_congr hsame,
    String.append_empty]
  intro heq
  have hlength := congrArg String.length heq
  have hmark : "out ".length = 4 := by decide
  rw [String.length_append] at hlength
  omega

end Chain

end Unfolded

/-- An alias, and a pointer to it, are mapped like the target with the stars
of both exactly if the target is no alias itself or adds no stars.  A target
that is an alias is no callable as well, as it would then be mapped as one
before its own target is looked at. -/
theorem mapType_alias_iff {ctx : TypeContext} {self? : Option String}
    (hacyclic : ctx.Acyclic) (hnames : ctx.NamesPlain)
    {name text : String} (hlookup : ctx.aliases.lookup name = some text)
    (hblock : name ∉ ctx.blocks) (hfunction : name ∉ ctx.functionPointers)
    (hconst : isConstQualified text.toList = false)
    (hcallable : isBlockText text.toList = false)
    (hchain : ctx.isAlias (baseTypeName text) = true →
      baseTypeName text ∉ ctx.blocks
        ∧ baseTypeName text ∉ ctx.functionPointers)
    (hends : Ends ctx self? (pointerText name 1).toList) :
    (∀ depth < 2, mapType ctx self? (pointerText name depth)
        = mapType ctx self? (pointerText (baseTypeName text)
          (starsOf text.toList + depth)))
      ↔ ctx.isAlias (baseTypeName text) = false
        ∨ starsOf text.toList = 0 := by
  obtain ⟨rank, hrank⟩ := hacyclic
  cases hbase : ctx.isAlias (baseTypeName text) with
  | false =>
      refine iff_of_true (fun depth hdepth => ?_) (.inl rfl)
      exact mapType_alias_of_not_isAlias hrank hnames hlookup hblock
        hfunction hbase hconst hcallable hdepth
  | true =>
      obtain ⟨hblock', hfunction'⟩ := hchain hbase
      constructor
      · intro hall
        refine .inr (Nat.eq_zero_of_not_pos fun hstars => ?_)
        exact mapType_alias_ne hrank hnames hlookup hblock hfunction hbase
          hblock' hfunction' hstars hends (hall 1 (by decide))
      · rintro (hnone | hstars) depth hdepth
        · cases hnone
        · exact mapType_alias_of_starless hrank hnames hlookup hblock
            hfunction hbase hblock' hfunction' hstars hdepth

/-- A number, a pointer to it and another number, by aliases. -/
def numberNames : TypeContext where
  aliases := [("Count", "int"), ("CountRef", "Count *"),
    ("Total", "Count")]

lemma acyclic_numberNames : numberNames.Acyclic := by
  refine ⟨fun name => if name = "int" then 0
    else if name = "Count" then 1 else 2, ranked_of_forall_mem ?_⟩
  decide +kernel

lemma namesPlain_numberNames : numberNames.NamesPlain := by
  unfold TypeContext.NamesPlain
  decide +kernel

/-- A second alias of a number is mapped like the first one, and so is the
pointer to it. -/
theorem mapType_alias_total :
    mapType numberNames none (pointerText "Total" 0)
        = mapType numberNames none (pointerText (baseTypeName "Count")
          (starsOf "Count".toList + 0))
      ∧ mapType numberNames none (pointerText "Total" 1)
        = mapType numberNames none (pointerText (baseTypeName "Count")
          (starsOf "Count".toList + 1)) := by
  have hlookup : numberNames.aliases.lookup "Total" = some "Count" := by
    decide +kernel
  have hrun : mapWithin numberNames none 3 (pointerText "Total" 1).toList
      = some "unsafe int*" := by
    decide +kernel
  have hall := (mapType_alias_iff acyclic_numberNames namesPlain_numberNames
    hlookup (by decide) (by decide) (by decide +kernel) (by decide +kernel)
    (fun _ => by decide +kernel) (ends_of_mapWithin hrun)).mpr
      (.inr (by decide +kernel))
  exact ⟨hall 0 (by decide), hall 1 (by decide)⟩

/-- The star of `Count *` is forgotten. -/
theorem not_mapType_alias_countRef :
    numberNames.Acyclic ∧ numberNames.NamesPlain
      ∧ numberNames.aliases.lookup "CountRef" = some "Count *"
      ∧ "CountRef" ∉ numberNames.blocks
      ∧ "CountRef" ∉ numberNames.functionPointers
      ∧ isConstQualified "Count *".toList = false
      ∧ isBlockText "Count *".toList = false
      ∧ isFunctionPointerText "Count *".toList = false
      ∧ baseTypeName "Count *" ≠ "CountRef"
      ∧ ¬ ∀ depth < 2, mapType numberNames none (pointerText "CountRef" depth)
        = mapType numberNames none (pointerText (baseTypeName "Count *")
          (starsOf "Count *".toList + depth)) := by
  refine ⟨acyclic_numberNames, namesPlain_numberNames, ?_⟩
  decide +kernel

end HeaderBinding
