/-
How many steps the map of a type takes.

* `mapStep_again`: a step that goes on leads from a pointer to what it
  points to, from an alias to its text, which is one of the `aliasTypes`,
  or to a part of a generic type;
* `stepWeight`: it gets less with every step that leads to no alias type;
* `EndsAfter`: the map of a type ends after just so many steps;
* `EndsAfter.le_stepBound`: it is never more than the bound, as no alias
  type is met twice on the way;
* `mapType?_eq_some_iff`, `mapType_of_again`: so the bound cuts off no type,
  and a type is mapped to what its step puts around the next.
-/
import Mathlib.Algebra.Order.BigOperators.Group.List
import Mathlib.Algebra.Order.Ring.Nat
import HeaderBinding.Proofs.Mapping.Stripped
import HeaderBinding.Proofs.Mapping.Trace

namespace HeaderBinding

variable {ctx : TypeContext} {self? : Option String}

/-! ### Where a step leads -/

/-- The types that an alias may lead to: its target, with one star more or
not and with or without `const`. -/
def targetTypes (entry : String × String) : List (List Char) :=
  let base := baseOf entry.2.toList
  let stars := starsOf entry.2.toList
  [pointerTo base stars, pointerTo base (1 + stars),
    "const ".toList ++ pointerTo base stars,
    "const ".toList ++ pointerTo base (1 + stars)]

/-- The types that aliases may lead to. -/
def aliasTypes (ctx : TypeContext) : List (List Char) :=
  ctx.aliases.flatMap targetTypes

/-- An alias stands for the target of some alias. -/
lemma exists_resolveText {name : String} (h : ctx.isAlias name = true) :
    ∃ entry ∈ ctx.aliases, ctx.resolveText name = entry.2 := by
  obtain ⟨target, htarget⟩ := Option.isSome_iff_exists.mp h
  rw [TypeContext.resolveText, chase_of_lookup_eq_some htarget]
  rcases chase_cases (withoutAlias name ctx.aliases) (baseTypeName target)
    target with heq | ⟨entry, hentry, heq⟩
  · exact ⟨_, mem_of_lookup htarget, heq⟩
  · exact ⟨entry, (List.mem_filter.mp hentry).1, heq⟩

/-- The step of an alias for the text. -/
def targetStep (hadConst : Bool) (text : String) (depth : Nat) : MapStep :=
  if isBlockText text.toList then .done "Action"
  else .again ""
    ((if isConstQualified (text.toList.takeWhile (· ≠ '*')) || hadConst
        then "const ".toList else [])
      ++ pointerTo (baseOf text.toList) (depth + starsOf text.toList)) ""

/-- An alias that does not stand for itself takes the step of its text. -/
lemma mapAlias?_of_ne {hadConst : Bool} {base : List Char} {depth : Nat}
    (halias : ctx.isAlias (String.ofList base) = true)
    (hne : baseOf (ctx.resolveText (String.ofList base)).toList ≠ base) :
    mapAlias? ctx hadConst base depth
      = some (targetStep hadConst (ctx.resolveText (String.ofList base))
        depth) := by
  rw [baseOf] at hne
  rw [mapAlias?, if_pos halias]
  simp only
  rw [if_neg hne, targetStep, ← apply_ite some]
  rfl

/-- An alias that stands for itself, and any other name, takes none. -/
lemma mapAlias?_eq_none {hadConst : Bool} {base : List Char} {depth : Nat}
    (h : ctx.isAlias (String.ofList base) = true →
      baseOf (ctx.resolveText (String.ofList base)).toList = base) :
    mapAlias? ctx hadConst base depth = none := by
  rw [mapAlias?]
  split
  · rename_i halias
    have heq := h halias
    rw [baseOf] at heq
    simp only [heq, if_true]
  · rfl

/-- A name that stands for no callable takes the step of its alias, or that
of its name. -/
lemma mapPointer_of_not_callable {hadConst : Bool} {base : List Char}
    {depth : Nat} (hdepth : depth < 2)
    (hblock : String.ofList base ∉ ctx.blocks)
    (hfunction : String.ofList base ∉ ctx.functionPointers) :
    mapPointer ctx self? hadConst base depth
      = match mapAlias? ctx hadConst base depth with
        | some step => step
        | none => mapNamed ctx self? hadConst base depth := by
  rw [mapPointer, if_neg (Nat.not_le.mpr hdepth)]
  cases mapAlias? ctx hadConst base depth <;>
    simp only [List.contains_iff_mem, hblock, hfunction, if_false]

/-- An alias that does not stand for itself leads to its text, with the
stars of both and with or without `const`. -/
def AliasLeads (ctx : TypeContext) (base : List Char) (depth : Nat)
    (type : List Char) : Prop :=
  ctx.isAlias (String.ofList base) = true
    ∧ baseOf (ctx.resolveText (String.ofList base)).toList ≠ base
    ∧ ∃ isConst : Bool, type = (if isConst then "const ".toList else [])
      ++ pointerTo (baseOf (ctx.resolveText (String.ofList base)).toList)
        (depth + starsOf (ctx.resolveText (String.ofList base)).toList)

lemma mapAlias?_again {hadConst : Bool} {base : List Char} {depth : Nat}
    {before behind : String} {type : List Char}
    (h : mapAlias? ctx hadConst base depth
      = some (.again before type behind)) : AliasLeads ctx base depth type := by
  unfold mapAlias? at h
  simp only at h
  split at h
  · rename_i halias
    split at h
    · cases h
    rename_i hne
    split at h
    · cases h
    · rw [Option.some.injEq, MapStep.again.injEq] at h
      exact ⟨halias, hne, _, h.2.1.symm⟩
  · cases h

lemma AliasLeads.mem_aliasTypes {base type : List Char} {depth : Nat}
    (h : AliasLeads ctx base depth type) (hdepth : depth < 2) :
    type ∈ aliasTypes ctx := by
  obtain ⟨halias, -, isConst, rfl⟩ := h
  obtain ⟨entry, hentry, htext⟩ := exists_resolveText halias
  refine List.mem_flatMap.mpr ⟨entry, hentry, ?_⟩
  rw [htext]
  obtain rfl | rfl : depth = 0 ∨ depth = 1 := by omega
  all_goals cases isConst <;> simp [targetTypes]

lemma mapGeneric_again {base : List Char} {depth : Nat} (hdepth : depth < 2)
    {before behind : String} {type : List Char}
    (h : mapGeneric ctx base depth = .again before type behind) :
    type ∈ (splitGeneric base).2
      ∨ type = pointerTo (splitGeneric base).1 depth := by
  have hplain : (splitGeneric base).1
      ++ (if depth = 0 then [] else [' ', '*'])
        = pointerTo (splitGeneric base).1 depth := by
    obtain rfl | rfl : depth = 0 ∨ depth = 1 := by omega
    all_goals rfl
  unfold mapGeneric at h
  simp only [hplain] at h
  split at h
  · repeat' split at h
    all_goals cases h
    exact .inr rfl
  · rename_i arg more hargs
    repeat' split at h
    all_goals cases h
    · rw [hargs]
      exact .inl List.mem_cons_self
    · exact .inr rfl

/-- A named type leads on only as a generic type. -/
lemma mapNamed_again {hadConst : Bool} {base : List Char} {depth : Nat}
    {before behind : String} {type : List Char}
    (h : mapNamed ctx self? hadConst base depth
      = .again before type behind) :
    '<' ∈ base
      ∧ mapGeneric ctx base depth = .again before type behind := by
  unfold mapNamed at h
  simp only at h
  split at h
  · cases h
  split at h
  · cases h
  split at h
  · cases h
  split at h
  · cases h
  split at h
  · cases h
  split at h
  · rename_i hangle
    exact ⟨List.contains_iff_mem.mp hangle, h⟩
  split at h <;> cases h

/-- Where a step leads that does not end. -/
theorem mapStep_again {cs type : List Char} {before behind : String}
    (h : mapStep ctx self? cs = .again before type behind) :
    (2 ≤ starsOf cs ∧ type = pointerTo (baseOf cs) 1)
      ∨ (starsOf cs < 2 ∧ AliasLeads ctx (baseOf cs) (starsOf cs) type)
      ∨ (starsOf cs < 2 ∧ '<' ∈ baseOf cs
        ∧ (type ∈ (splitGeneric (baseOf cs)).2
          ∨ type = pointerTo (splitGeneric (baseOf cs)).1 (starsOf cs))) := by
  rw [baseOf, starsOf]
  unfold mapStep mapPointer at h
  simp only at h
  split at h
  · cases h
  split at h
  · cases h
  split at h
  · cases h
  split at h
  · cases h
  split at h
  · rename_i hstars
    rw [MapStep.again.injEq] at h
    exact .inl ⟨hstars, h.2.1.symm⟩
  rename_i hstars
  rw [Nat.not_le] at hstars
  split at h
  · cases h
  split at h
  · cases h
  split at h
  · rename_i halias
    exact .inr (.inl ⟨hstars, mapAlias?_again (h ▸ halias)⟩)
  · obtain ⟨hangle, hgeneric⟩ := mapNamed_again h
    exact .inr (.inr ⟨hstars, hangle, mapGeneric_again hstars hgeneric⟩)

/-! ### Weights -/

/-- A number that gets less with every step that leads to no alias type.
As long as no character of the name goes, a type loses its stars but one,
and what is written as a name and its stars leads only to itself. -/
def stepWeight (cs : List Char) : Nat :=
  3 * bodyLength cs
    + if 2 ≤ starsOf cs then 3
      else if pointerTo (baseOf cs) (starsOf cs) = cs then 1 else 2

lemma stepWeight_bounds (cs : List Char) :
    3 * bodyLength cs < stepWeight cs
      ∧ stepWeight cs ≤ 3 * bodyLength cs + 3 := by
  unfold stepWeight
  split
  · omega
  · split <;> omega

lemma stepWeight_lt_of_bodyLength {as bs : List Char}
    (h : bodyLength as < bodyLength bs) : stepWeight as < stepWeight bs := by
  have has := (stepWeight_bounds as).2
  have hbs := (stepWeight_bounds bs).1
  omega

/-- A pointer to a pointer weighs more than the pointer. -/
lemma stepWeight_pointerTo_one {cs : List Char} (h : 2 ≤ starsOf cs) :
    stepWeight (pointerTo (baseOf cs) 1) < stepWeight cs := by
  have hstars := starsOf_pointerTo_one (isBase_baseOf cs)
  have hbody := bodyLength_pointerTo (baseOf cs) 1
  have hle := bodyLength_baseOf cs
  rw [stepWeight, if_neg (by omega), stepWeight, if_pos h]
  split <;> omega

/-- A type that is not closed weighs more than its name and its star. -/
lemma stepWeight_pointerTo_self {cs : List Char} (h : starsOf cs < 2)
    (hangle : '<' ∈ baseOf cs)
    (hne : pointerTo (baseOf cs) (starsOf cs) ≠ cs) :
    stepWeight (pointerTo (baseOf cs) (starsOf cs)) < stepWeight cs := by
  have hbody := bodyLength_pointerTo (baseOf cs) (starsOf cs)
  rcases bodyLength_baseOf cs with ⟨hno, hle⟩ | hlt
  · obtain ⟨hbase, hstars⟩ := baseOf_pointerTo (isBase_baseOf cs)
      (List.ne_nil_of_mem hangle)
      (noTag_pointerTo_baseOf hno hangle (starsOf cs))
    rw [stepWeight, hbase, hstars, if_neg (by omega), if_pos rfl,
      stepWeight, if_neg (by omega), if_neg hne]
    omega
  · exact stepWeight_lt_of_bodyLength (by omega)

/-- What a step leads to weighs less, unless an alias leads to it or the
type leads to itself. -/
theorem stepWeight_lt {cs type : List Char} {before behind : String}
    (h : mapStep ctx self? cs = .again before type behind)
    (hne : type ≠ cs) :
    type ∈ aliasTypes ctx ∨ stepWeight type < stepWeight cs := by
  rcases mapStep_again h with ⟨hstars, heq⟩ | ⟨hstars, halias⟩ |
    ⟨hstars, hangle, hpart⟩
  · rw [heq]
    exact .inr (stepWeight_pointerTo_one hstars)
  · exact .inl (halias.mem_aliasTypes hstars)
  refine .inr ?_
  have hle : bodyLength (baseOf cs) ≤ bodyLength cs :=
    (bodyLength_baseOf cs).elim (·.2) Nat.le_of_lt
  obtain ⟨hargs, hname⟩ := bodyLength_splitGeneric_lt hangle
  rcases hpart with harg | hplain
  · have := hargs type harg
    exact stepWeight_lt_of_bodyLength (by omega)
  rw [hplain] at hne ⊢
  rcases hname with heq | hlt
  · rw [heq] at hne ⊢
    exact stepWeight_pointerTo_self hstars hangle hne
  · refine stepWeight_lt_of_bodyLength ?_
    rw [bodyLength_pointerTo]
    omega

/-! ### Runs that end -/

/-- The map takes a type to a text in just so many steps. -/
inductive EndsAfter (ctx : TypeContext) (self? : Option String) :
    Nat → List Char → String → Prop
  | done {cs : List Char} {text : String}
      (h : mapStep ctx self? cs = .done text) :
      EndsAfter ctx self? 1 cs text
  | again {steps : Nat} {cs type : List Char} {before text behind : String}
      (h : mapStep ctx self? cs = .again before type behind)
      (hends : EndsAfter ctx self? steps type text) :
      EndsAfter ctx self? (steps + 1) cs (before ++ text ++ behind)

/-- A step that puts nothing around the next type ends in its text. -/
lemma EndsAfter.again_bare {steps : Nat} {cs type : List Char}
    {text : String} (h : mapStep ctx self? cs = .again "" type "")
    (hends : EndsAfter ctx self? steps type text) :
    EndsAfter ctx self? (steps + 1) cs text := by
  have := EndsAfter.again h hends
  rwa [String.empty_append, String.append_empty] at this

/-- The number of steps is settled, and so is the text. -/
lemma EndsAfter.unique {m n : Nat} {cs : List Char} {s t : String}
    (hm : EndsAfter ctx self? m cs s) (hn : EndsAfter ctx self? n cs t) :
    m = n ∧ s = t := by
  induction hm generalizing n t with
  | done h =>
      cases hn with
      | done h' =>
          rw [h, MapStep.done.injEq] at h'
          exact ⟨rfl, h'⟩
      | again h' => rw [h] at h'; cases h'
  | again h _ ih =>
      cases hn with
      | done h' => rw [h] at h'; cases h'
      | again h' hends =>
          rw [h, MapStep.again.injEq] at h'
          obtain ⟨rfl, rfl, rfl⟩ := h'
          obtain ⟨rfl, rfl⟩ := ih hends
          exact ⟨rfl, rfl⟩

/-- What is reached within some steps is reached after just so many of
them. -/
theorem mapWithin_eq_some_iff {steps : Nat} {cs : List Char}
    {text : String} :
    mapWithin ctx self? steps cs = some text
      ↔ ∃ n ≤ steps, EndsAfter ctx self? n cs text := by
  constructor
  · intro h
    induction steps generalizing cs text with
    | zero => cases h
    | succ steps ih =>
        rw [mapWithin] at h
        cases hstep : mapStep ctx self? cs with
        | done text' =>
            rw [hstep] at h
            obtain rfl := Option.some.inj h
            exact ⟨1, by omega, .done hstep⟩
        | again before type behind =>
            rw [hstep] at h
            obtain ⟨text', htext', rfl⟩ := Option.map_eq_some_iff.mp h
            obtain ⟨n, hle, hn⟩ := ih htext'
            exact ⟨n + 1, by omega, .again hstep hn⟩
  · rintro ⟨n, hle, h⟩
    induction h generalizing steps with
    | @done cs text h =>
        obtain ⟨k, rfl⟩ := Nat.exists_eq_add_of_le' hle
        rw [mapWithin, h]
    | @again n cs type before text behind h _ ih =>
        obtain ⟨k, rfl⟩ := Nat.exists_eq_add_of_le' hle
        rw [← Nat.add_assoc, mapWithin, h]
        simp only [ih (Nat.le_add_left n k), Option.map_some]

/-- A run that ends takes no more steps than its type and the alias types
on the way weigh.  These are met once each, as every type on the way ends
after a number of steps of its own. -/
theorem EndsAfter.le_weights {n : Nat} {cs : List Char} {text : String}
    (h : EndsAfter ctx self? n cs text) {types : List (List Char)}
    (htypes : ∀ type ∈ aliasTypes ctx, ∀ k < n, ∀ t,
      EndsAfter ctx self? k type t → type ∈ types) :
    n ≤ stepWeight cs + (types.map stepWeight).sum := by
  induction h generalizing types with
  | @done cs text h =>
      have := (stepWeight_bounds cs).1
      omega
  | @again n cs type before text behind h hends ih =>
      have hne : type ≠ cs := by
        rintro rfl
        have := (hends.unique (.again h hends)).1
        omega
      have hcs := (stepWeight_bounds cs).1
      rcases stepWeight_lt h hne with halias | hlt
      · -- the alias type is not met again
        have hmem := htypes type halias n (Nat.lt_succ_self n) _ hends
        have herase : ∀ type' ∈ aliasTypes ctx, ∀ k < n, ∀ t,
            EndsAfter ctx self? k type' t → type' ∈ types.erase type := by
          intro type' hin k hk t hk'
          refine (List.mem_erase_of_ne ?_).mpr
            (htypes type' hin k (by omega) t hk')
          rintro rfl
          have := (hends.unique hk').1
          omega
        have hle := ih herase
        have hsum :=
          ((List.perm_cons_erase hmem).map stepWeight).sum_eq
        rw [List.map_cons, List.sum_cons] at hsum
        omega
      · have hle := ih fun type' hin k hk t hk' =>
          htypes type' hin k (by omega) t hk'
        omega

/-! ### The bound -/

lemma bodyLength_const : bodyLength "const ".toList = 5 := by
  decide +kernel

lemma bodyLength_targetTypes_le {entry : String × String}
    {type : List Char} (h : type ∈ targetTypes entry) :
    bodyLength type ≤ 5 + entry.2.toList.length := by
  have hbase : bodyLength (baseOf entry.2.toList)
      ≤ entry.2.toList.length :=
    ((bodyLength_baseOf _).elim (·.2) Nat.le_of_lt).trans
      (bodyLength_le_length _)
  have hpointer : ∀ depth,
      bodyLength (pointerTo (baseOf entry.2.toList) depth)
        ≤ entry.2.toList.length := by
    intro depth
    rwa [bodyLength_pointerTo]
  simp only [targetTypes, List.mem_cons, List.not_mem_nil, or_false] at h
  rcases h with h | h | h | h
  · rw [h]
    exact Nat.le_add_left_of_le (hpointer _)
  · rw [h]
    exact Nat.le_add_left_of_le (hpointer _)
  · rw [h, bodyLength_append]
    exact Nat.add_le_add bodyLength_const.le (hpointer _)
  · rw [h, bodyLength_append]
    exact Nat.add_le_add bodyLength_const.le (hpointer _)

/-- What a target weighs, in all its spellings. -/
lemma sum_targetTypes_le (entry : String × String) :
    ((targetTypes entry).map stepWeight).sum
      ≤ 12 * (6 + entry.2.toList.length) := by
  have hsum := List.sum_le_card_nsmul ((targetTypes entry).map stepWeight)
    (3 * (6 + entry.2.toList.length)) (by
      intro weight hin
      obtain ⟨type, htype, rfl⟩ := List.mem_map.mp hin
      have hle := (stepWeight_bounds type).2
      have hbody := bodyLength_targetTypes_le htype
      omega)
  have hlength : (targetTypes entry).length = 4 := rfl
  rw [List.length_map, hlength, nsmul_eq_mul, Nat.cast_ofNat] at hsum
  omega

lemma sum_flatMap_targetTypes_le (table : List (String × String))
    (n : Nat) :
    12 * n + ((table.flatMap targetTypes).map stepWeight).sum
      ≤ 12 * table.foldl (fun n a => n + 6 + a.2.toList.length) n := by
  induction table generalizing n with
  | nil => simp
  | cons entry table ih =>
      have hle := ih (n + 6 + entry.2.toList.length)
      have hentry := sum_targetTypes_le entry
      rw [List.flatMap_cons, List.map_append, List.sum_append,
        List.foldl_cons]
      omega

/-- A run that ends stays within the bound. -/
theorem EndsAfter.le_stepBound {n : Nat} {cs : List Char} {text : String}
    (h : EndsAfter ctx self? n cs text) : n ≤ stepBound ctx cs := by
  have hall : ∀ type ∈ aliasTypes ctx, ∀ k < n, ∀ t,
      EndsAfter ctx self? k type t → type ∈ aliasTypes ctx :=
    fun type htype _ _ _ _ => htype
  have hle := h.le_weights hall
  have hsum := sum_flatMap_targetTypes_le ctx.aliases 0
  have hcs := (stepWeight_bounds cs).2
  have hbody := bodyLength_le_length cs
  rw [aliasTypes] at hle
  rw [stepBound]
  omega

/-- A type is mapped to the text in which the map ends. -/
theorem mapType?_eq_some_iff {type text : String} :
    mapType? ctx self? type = some text
      ↔ ∃ n, EndsAfter ctx self? n type.toList text := by
  rw [mapType?, mapWithin_eq_some_iff]
  constructor
  · rintro ⟨n, -, hn⟩
    exact ⟨n, hn⟩
  · rintro ⟨n, hn⟩
    exact ⟨n, hn.le_stepBound, hn⟩

/-- What the map ends in is what a type is mapped to. -/
theorem EndsAfter.mapType_eq {n : Nat} {type text : String}
    (h : EndsAfter ctx self? n type.toList text) :
    mapType ctx self? type = text := by
  rw [mapType, mapType?_eq_some_iff.mpr ⟨n, h⟩, Option.getD_some]

/-- The map of the type ends. -/
def Ends (ctx : TypeContext) (self? : Option String) (cs : List Char) :
    Prop :=
  ∃ n text, EndsAfter ctx self? n cs text

/-- The map of a type that leads to itself does not end. -/
lemma not_ends_of_again_self {cs : List Char} {before behind : String}
    (h : mapStep ctx self? cs = .again before cs behind) :
    ¬ Ends ctx self? cs := by
  rintro ⟨n, text, hn⟩
  cases hn with
  | done h' => rw [h] at h'; cases h'
  | again h' hends =>
      rw [h, MapStep.again.injEq] at h'
      obtain ⟨-, rfl, -⟩ := h'
      have := (hends.unique (.again h hends)).1
      omega

lemma ends_of_mapWithin {steps : Nat} {cs : List Char} {text : String}
    (h : mapWithin ctx self? steps cs = some text) : Ends ctx self? cs := by
  obtain ⟨n, -, hn⟩ := mapWithin_eq_some_iff.mp h
  exact ⟨n, text, hn⟩

/-- A type has a C# type exactly if the map ends. -/
theorem isSome_mapType?_iff {type : String} :
    (mapType? ctx self? type).isSome = true
      ↔ Ends ctx self? type.toList := by
  rw [Option.isSome_iff_exists]
  constructor
  · rintro ⟨text, h⟩
    obtain ⟨n, hn⟩ := mapType?_eq_some_iff.mp h
    exact ⟨n, text, hn⟩
  · rintro ⟨n, text, hn⟩
    exact ⟨text, mapType?_eq_some_iff.mpr ⟨n, hn⟩⟩

lemma mapType_of_not_ends {type : String}
    (h : ¬ Ends ctx self? type.toList) : mapType ctx self? type = "" := by
  rw [← isSome_mapType?_iff, Option.not_isSome_iff_eq_none] at h
  rw [mapType, h, Option.getD_none]

/-- Types with the same outcome within any number of steps are mapped
alike. -/
lemma mapType_congr_within {type type' : String}
    (h : ∀ steps, mapWithin ctx self? steps type.toList
      = mapWithin ctx self? steps type'.toList) :
    mapType ctx self? type = mapType ctx self? type' := by
  by_cases hends : Ends ctx self? type.toList
  · obtain ⟨n, text, hn⟩ := hends
    have hwithin := mapWithin_eq_some_iff.mpr ⟨n, Nat.le_refl n, hn⟩
    rw [h] at hwithin
    obtain ⟨n', -, hn'⟩ := mapWithin_eq_some_iff.mp hwithin
    rw [hn.mapType_eq, hn'.mapType_eq]
  · rw [mapType_of_not_ends hends, mapType_of_not_ends]
    rintro ⟨n, text, hn⟩
    have hwithin := mapWithin_eq_some_iff.mpr ⟨n, Nat.le_refl n, hn⟩
    rw [← h] at hwithin
    exact hends (ends_of_mapWithin hwithin)

section Again

variable {type next : String} {before behind : String}
  (h : mapStep ctx self? type.toList = .again before next.toList behind)
include h

/-- A type ends exactly if the one that its step leads to does. -/
lemma ends_iff_of_again :
    Ends ctx self? type.toList ↔ Ends ctx self? next.toList := by
  constructor
  · rintro ⟨n, text, hn⟩
    cases hn with
    | done h' => rw [h] at h'; cases h'
    | again h' hends =>
        rw [h, MapStep.again.injEq] at h'
        exact ⟨_, _, h'.2.1 ▸ hends⟩
  · rintro ⟨n, text, hn⟩
    exact ⟨_, _, .again h hn⟩

/-- A type that ends is mapped to what its step puts around the next. -/
theorem mapType_of_again (hends : Ends ctx self? next.toList) :
    mapType ctx self? type = before ++ mapType ctx self? next ++ behind := by
  obtain ⟨n, text, hn⟩ := hends
  rw [hn.mapType_eq, (EndsAfter.again h hn).mapType_eq]

end Again

section Same

variable {type type' : String}
  (h : mapStep ctx self? type.toList = mapStep ctx self? type'.toList)
include h

/-- Types with the same step end alike. -/
lemma endsAfter_congr {n : Nat} {text : String}
    (hends : EndsAfter ctx self? n type.toList text) :
    EndsAfter ctx self? n type'.toList text := by
  cases hends with
  | done h' => exact .done (h ▸ h')
  | again h' hends => exact .again (h ▸ h') hends

lemma ends_congr :
    Ends ctx self? type.toList ↔ Ends ctx self? type'.toList :=
  ⟨fun ⟨n, text, hn⟩ => ⟨n, text, endsAfter_congr h hn⟩,
    fun ⟨n, text, hn⟩ => ⟨n, text, endsAfter_congr h.symm hn⟩⟩

/-- So they are mapped alike. -/
theorem mapType_congr :
    mapType ctx self? type = mapType ctx self? type' := by
  by_cases hends : Ends ctx self? type.toList
  · obtain ⟨n, text, hn⟩ := hends
    rw [hn.mapType_eq, (endsAfter_congr h hn).mapType_eq]
  · rw [mapType_of_not_ends hends,
      mapType_of_not_ends (mt (ends_congr h).mpr hends)]

end Same

/-- A step that puts nothing around the next type changes nothing. -/
theorem mapType_of_again_bare {type next : String}
    (h : mapStep ctx self? type.toList = .again "" next.toList "") :
    mapType ctx self? type = mapType ctx self? next := by
  by_cases hends : Ends ctx self? next.toList
  · rw [mapType_of_again h hends, String.empty_append, String.append_empty]
  · rw [mapType_of_not_ends hends,
      mapType_of_not_ends (mt (ends_iff_of_again h).mp hends)]

end HeaderBinding
