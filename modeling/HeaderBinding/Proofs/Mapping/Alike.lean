/-
Contexts that give the same types the same meaning.

* `TypeContext.Alike`: the same aliases in any order, each name once, and
  the same other names;
* `TypeContext.Alike.mapType`: every type is mapped alike;
* `TypeContext.Alike.isObjectReference`: and is a reference in both or in
  neither.
-/
import Mathlib.Data.List.Nodup
import Mathlib.Data.List.Perm.Basic
import HeaderBinding.Mapping.Reference

namespace HeaderBinding

/-! ### Tables of aliases -/

/-- Where each name has one entry, the order of the entries does not
count. -/
lemma lookup_eq_of_perm {table table' : List (String × String)}
    (h : table.Perm table') (hkeys : (table.map (·.1)).Nodup)
    (name : String) : table.lookup name = table'.lookup name := by
  induction h with
  | nil => rfl
  | cons e _ ih =>
      rw [List.lookup_cons, List.lookup_cons, ih (List.nodup_cons.mp hkeys).2]
  | swap e f table =>
      obtain ⟨key, text⟩ := e
      obtain ⟨other, text'⟩ := f
      have hne : other ≠ key := fun heq =>
        (List.nodup_cons.mp hkeys).1 (List.mem_cons.mpr (.inl heq))
      by_cases hkey : name = key
      · have hother : (name == other) = false := by
          simpa [hkey] using hne.symm
        simp only [List.lookup_cons, beq_iff_eq.mpr hkey, hother]
      · have hkey : (name == key) = false := by simpa using hkey
        simp only [List.lookup_cons, hkey]
  | trans h _ ih ih' =>
      exact (ih hkeys).trans (ih' ((h.map _).nodup_iff.mp hkeys))

lemma nodup_keys_withoutAlias {table : List (String × String)}
    (hkeys : (table.map (·.1)).Nodup) (name : String) :
    ((withoutAlias name table).map (·.1)).Nodup :=
  hkeys.sublist (List.filter_sublist.map _)

/-- A name stands for the same text. -/
lemma chase_eq_of_perm {table table' : List (String × String)}
    (h : table.Perm table') (hkeys : (table.map (·.1)).Nodup)
    (current text : String) :
    chase table current text = chase table' current text := by
  fun_induction chase table current text generalizing table' with
  | case1 table current text hnone =>
      rw [lookup_eq_of_perm h hkeys] at hnone
      exact (chase_of_lookup_eq_none hnone text).symm
  | case2 table current text target hsome ih =>
      rw [lookup_eq_of_perm h hkeys] at hsome
      rw [ih (h.filter _) (nodup_keys_withoutAlias hkeys _),
        chase_of_lookup_eq_some hsome]
      rfl

/-! ### Contexts -/

namespace TypeContext

/-- The contexts have the same names; in the first, and so in both, each
alias has one entry. -/
structure Alike (ctx ctx' : TypeContext) : Prop where
  aliases : ctx.aliases.Perm ctx'.aliases
  keys : (ctx.aliases.map (·.1)).Nodup
  blocks : ∀ name, ctx.blocks.contains name = ctx'.blocks.contains name
  functionPointers : ∀ name, ctx.functionPointers.contains name
    = ctx'.functionPointers.contains name
  enums : ∀ name, ctx.enums.contains name = ctx'.enums.contains name
  structs : ∀ name, ctx.structs.contains name = ctx'.structs.contains name

namespace Alike

variable {ctx ctx' : TypeContext} (h : ctx.Alike ctx')
include h

lemma isAlias (name : String) : ctx.isAlias name = ctx'.isAlias name := by
  rw [TypeContext.isAlias, lookup_eq_of_perm h.aliases h.keys,
    TypeContext.isAlias]

lemma resolveText (name : String) :
    ctx.resolveText name = ctx'.resolveText name :=
  chase_eq_of_perm h.aliases h.keys name name

lemma resolve (name : String) : ctx.resolve name = ctx'.resolve name :=
  congrArg baseTypeName (h.resolveText name)

lemma isEnum (name : String) : ctx.isEnum name = ctx'.isEnum name := by
  rw [TypeContext.isEnum, h.resolve, h.enums, h.enums, TypeContext.isEnum]

/-- So many steps are enough in both. -/
lemma stepBound (cs : List Char) :
    stepBound ctx cs = stepBound ctx' cs := by
  have hsum := h.aliases.foldl_eq' (f := fun n a =>
    n + 6 + a.2.toList.length) (fun _ _ _ _ _ => by omega) 0
  rw [HeaderBinding.stepBound, hsum, HeaderBinding.stepBound]

/-! ### The C# type -/

lemma elementClass (arg : List Char) :
    elementClass ctx arg = elementClass ctx' arg := by
  simp only [HeaderBinding.elementClass, h.isAlias, h.resolve]

lemma mapGeneric (base : List Char) (depth : Nat) :
    mapGeneric ctx base depth = mapGeneric ctx' base depth := by
  simp only [HeaderBinding.mapGeneric, h.elementClass]

lemma mapNamed (self? : Option String) (hadConst : Bool)
    (base : List Char) (depth : Nat) :
    mapNamed ctx self? hadConst base depth
      = mapNamed ctx' self? hadConst base depth := by
  simp only [HeaderBinding.mapNamed, h.mapGeneric, h.structs, h.enums]

lemma mapAlias? (hadConst : Bool) (base : List Char) (depth : Nat) :
    mapAlias? ctx hadConst base depth
      = mapAlias? ctx' hadConst base depth := by
  simp only [HeaderBinding.mapAlias?, h.isAlias, h.resolveText]

lemma mapPointer (self? : Option String) (hadConst : Bool)
    (base : List Char) (depth : Nat) :
    mapPointer ctx self? hadConst base depth
      = mapPointer ctx' self? hadConst base depth := by
  simp only [HeaderBinding.mapPointer, h.blocks, h.functionPointers,
    h.mapAlias?, h.mapNamed]

lemma mapStep (self? : Option String) (cs : List Char) :
    mapStep ctx self? cs = mapStep ctx' self? cs := by
  simp only [HeaderBinding.mapStep, h.mapPointer]

lemma mapWithin (self? : Option String) (steps : Nat) (cs : List Char) :
    mapWithin ctx self? steps cs = mapWithin ctx' self? steps cs := by
  induction steps generalizing cs with
  | zero => rfl
  | succ steps ih =>
      simp only [HeaderBinding.mapWithin, h.mapStep, ih]

lemma mapType? (self? : Option String) (type : String) :
    mapType? ctx self? type = mapType? ctx' self? type := by
  rw [HeaderBinding.mapType?, h.stepBound, h.mapWithin,
    HeaderBinding.mapType?]

/-- Every type is mapped alike. -/
theorem mapType (self? : Option String) (type : String) :
    mapType ctx self? type = mapType ctx' self? type :=
  congrArg (·.getD "") (h.mapType? self? type)

/-! ### References -/

lemma namedIsReference (base : List Char) (depth : Nat) :
    namedIsReference ctx base depth = namedIsReference ctx' base depth := by
  simp only [HeaderBinding.namedIsReference, h.structs, h.enums]

lemma referenceStep (cs : List Char) :
    referenceStep ctx cs = referenceStep ctx' cs := by
  simp only [HeaderBinding.referenceStep, h.blocks, h.isAlias,
    h.resolveText, h.namedIsReference]

lemma referenceWithin (steps : Nat) (cs : List Char) :
    referenceWithin ctx steps cs = referenceWithin ctx' steps cs := by
  induction steps generalizing cs with
  | zero => rfl
  | succ steps ih =>
      simp only [HeaderBinding.referenceWithin, h.referenceStep, ih]

lemma isObjectReference? (type : String) :
    isObjectReference? ctx type = isObjectReference? ctx' type := by
  rw [HeaderBinding.isObjectReference?, h.stepBound, h.referenceWithin,
    HeaderBinding.isObjectReference?]

/-- A type is a reference in both contexts or in neither. -/
theorem isObjectReference (type : String) :
    isObjectReference ctx type = isObjectReference ctx' type :=
  congrArg (·.getD false) (h.isObjectReference? type)

end Alike

end TypeContext

end HeaderBinding
