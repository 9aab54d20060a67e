/-
Whether a type is mapped to the name that its declaration gets.

* `Header.IsOrdinaryName`: a plain name that neither the tables nor an
  alias of the header explains;
* `references_agree`: for classes, enumerations and structures of such
  names it is, unless the name ends in `Block`, or the class shares it with
  an enumeration or a structure; for block types it always is;
* `references_agree_shop`: a header with all of them;
* `not_references_agree_dataBlock`: a class whose name ends so.
-/
import HeaderBinding.Header.Read
import HeaderBinding.Proofs.Binding.Members
import HeaderBinding.Proofs.Mapping.Names

namespace HeaderBinding

/-- A plain name that the tables do not know and no alias of the header
explains. -/
structure Header.IsOrdinaryName (h : Header) (name : String) : Prop where
  plain : IsPlainName name
  primitive : primitiveTypes.lookup name = none
  object : objectTypes.lookup name = none
  self : name ≠ "instancetype"
  unaliased : ∀ a ∈ h.aliases, a.name ≠ name

instance (h : Header) (name : String) : Decidable (h.IsOrdinaryName name) :=
  decidable_of_iff (IsPlainName name ∧ primitiveTypes.lookup name = none
    ∧ objectTypes.lookup name = none ∧ name ≠ "instancetype"
    ∧ ∀ a ∈ h.aliases, a.name ≠ name)
    ⟨fun ⟨hn, hp, ho, hs, ha⟩ => ⟨hn, hp, ho, hs, ha⟩,
      fun ⟨hn, hp, ho, hs, ha⟩ => ⟨hn, hp, ho, hs, ha⟩⟩

section Ordinary

variable {h : Header} {name : String}

/-- What an ordinary name, and a pointer to what it names, are mapped
to. -/
lemma Header.IsOrdinaryName.mapType_name (hn : h.IsOrdinaryName name)
    (self? : Option String) :
    mapType (.ofHeader h) self? name = delegateName name
      ∧ mapType (.ofHeader h) self? (name ++ " *")
        = if name ∈ (TypeContext.ofHeader h).structs
            ∨ name ∈ (TypeContext.ofHeader h).enums then
          unsafePointer name else delegateName name := by
  refine mapType_ordinaryName hn.plain hn.primitive hn.object hn.self ?_ ?_
    ?_
  · intro hb
    obtain ⟨a, ha, -, -, heq⟩ := TypeContext.mem_blocks_ofHeader.mp hb
    exact hn.unaliased a ha heq
  · intro hf
    obtain ⟨a, ha, -, -, -, heq⟩ :=
      TypeContext.mem_functionPointers_ofHeader.mp hf
    exact hn.unaliased a ha heq
  · rw [TypeContext.isAlias, Option.isSome_eq_false_iff,
      Option.isNone_iff_eq_none]
    by_contra hlookup
    obtain ⟨target, htarget⟩ := Option.ne_none_iff_exists'.mp hlookup
    obtain ⟨a, ha, heq⟩ :=
      TypeContext.mem_aliases_ofHeader (mem_of_lookup htarget)
    exact hn.unaliased a ha (Prod.mk.inj heq).1.symm

/-- A name stays what it is if it does not end in `Block`. -/
lemma Header.IsOrdinaryName.mapType_eq_iff (hn : h.IsOrdinaryName name)
    (self? : Option String) :
    mapType (.ofHeader h) self? name = name
      ↔ ¬ EndsInBlock name := by
  rw [(hn.mapType_name self?).1, delegateName_eq_self_iff]

/-- A pointer to a class is what the class is called if its name does not
end in `Block` and names no structure and no enumeration. -/
lemma Header.IsOrdinaryName.mapType_pointer_eq_iff
    (hn : h.IsOrdinaryName name) (self? : Option String) :
    mapType (.ofHeader h) self? (name ++ " *") = name
      ↔ ¬ EndsInBlock name ∧ (∀ s ∈ h.structs, s.name ≠ name)
        ∧ ∀ e ∈ h.enums, e.name? ≠ some name := by
  have hne : name ≠ "" := fun heq => hn.plain.ne_nil (by rw [heq]; rfl)
  have hstructs : name ∈ (TypeContext.ofHeader h).structs
      ↔ ∃ s ∈ h.structs, s.name = name := by
    rw [TypeContext.mem_structs_ofHeader]
    exact exists_congr fun s => and_congr_right fun _ =>
      and_iff_right_of_imp fun heq => heq ▸ hne
  have henums : name ∈ (TypeContext.ofHeader h).enums
      ↔ ∃ e ∈ h.enums, e.name? = some name := by
    rw [TypeContext.mem_enums_ofHeader]
    exact exists_congr fun e => and_congr_right fun _ =>
      and_iff_right hne
  rw [(hn.mapType_name self?).2]
  split
  · rename_i hshared
    rw [hstructs, henums] at hshared
    refine iff_of_false (unsafePointer_ne name) ?_
    rintro ⟨-, hs, he⟩
    rcases hshared with ⟨s, hmem, heq⟩ | ⟨e, hmem, heq⟩
    · exact hs s hmem heq
    · exact he e hmem heq
  · rename_i hshared
    rw [hstructs, henums] at hshared
    obtain ⟨hs, he⟩ := not_or.mp hshared
    rw [delegateName_eq_self_iff]
    exact (and_iff_left ⟨fun s hmem heq => hs ⟨s, hmem, heq⟩,
      fun e hmem heq => he ⟨e, hmem, heq⟩⟩).symm

end Ordinary

/-! ### Declared names -/

/-- The names of declarations and those that types are mapped to. -/
theorem references_agree (h : Header) (self? : Option String) :
    (∀ i ∈ h.interfaces, i.category? = none → h.IsOrdinaryName i.name →
        ∃ d ∈ assembleHeader h, d.kind = .interface ∧ d.name = i.name
          ∧ (mapType (.ofHeader h) self? (i.name ++ " *") = d.name
            ↔ ¬ EndsInBlock i.name ∧ (∀ s ∈ h.structs, s.name ≠ i.name)
              ∧ ∀ e ∈ h.enums, e.name? ≠ some i.name))
      ∧ (∀ e ∈ h.enums, ∀ name ∈ e.name?, h.IsOrdinaryName name →
        bindEnum e name ∈ assembleHeader h
          ∧ (mapType (.ofHeader h) self? name = (bindEnum e name).name
            ↔ ¬ EndsInBlock name))
      ∧ (∀ s ∈ h.structs, s.fields ≠ [] → h.IsOrdinaryName s.name →
        bindStruct (.ofHeader h) s ∈ assembleHeader h
          ∧ (mapType (.ofHeader h) self? s.name
              = (bindStruct (.ofHeader h) s).name
            ↔ ¬ EndsInBlock s.name))
      ∧ ∀ a ∈ h.aliases, a.isBlock = true → IsPlainName a.name →
        bindDelegate (.ofHeader h) a ∈ assembleHeader h
          ∧ mapType (.ofHeader h) self? a.name
            = (bindDelegate (.ofHeader h) a).name := by
  have hne : ∀ {name}, IsPlainName name → name ≠ "" :=
    fun hn heq => hn.ne_nil (by rw [heq]; rfl)
  obtain ⟨henums, hstructs, -, -, -, hinterfaces, hblocks⟩ :=
    (forall_declarations (P := (· ∈ assembleHeader h)) (.ofHeader h)
      h.merged).mp fun _ hd => assembleHeader_eq h ▸ hd
  refine ⟨fun i hi hprimary hn => ?_, fun e he name hname hn => ?_,
    fun s hs hfields hn => ?_, fun a ha hblock hn => ?_⟩
  · have hmerged : ∃ j ∈ h.merged.interfaces,
        j.name = i.name ∧ j.category? = none :=
      exists_mem_mergeInterfaces hi hprimary
    obtain ⟨j, hj, hname, hcategory⟩ := hmerged
    have hbound : bindInterface (.ofHeader h) j
        = bindClass (.ofHeader h) j := by
      rw [bindInterface, hcategory]
    refine ⟨bindClass (.ofHeader h) j, hbound ▸ hinterfaces j hj, rfl,
      hname, ?_⟩
    have hd : (bindClass (.ofHeader h) j).name = i.name := hname
    rw [hd]
    exact hn.mapType_pointer_eq_iff self?
  · exact ⟨henums _ (bindEnum_mem (hne hn.plain) hname he 0),
      hn.mapType_eq_iff self?⟩
  · refine ⟨hstructs s (List.mem_filter.mpr ⟨hs, ?_⟩),
      hn.mapType_eq_iff self?⟩
    simp [hne hn.plain, hfields]
  · refine ⟨hblocks a (List.mem_filter.mpr ⟨ha, ?_⟩),
      mapType_blockName hn ?_⟩
    · simp [hblock, hne hn]
    · exact TypeContext.mem_blocks_ofHeader.mpr
        ⟨a, ha, hne hn, hblock, rfl⟩

/-- A header with a class, an enumeration, a structure and a name for a
block type that ends in `Block`. -/
def shopHeader : Header :=
  { interfaces := [{ name := "Shop" }]
    enums := [{ name? := some "Mode", cases := [⟨"idle", none⟩] }]
    structs := [⟨"Cell", [⟨"count", "int"⟩]⟩]
    aliases := [⟨"DoneBlock", "void (^)(int code)"⟩] }

/-- All of its references agree with its declarations. -/
theorem references_agree_shop :
    (∃ i ∈ shopHeader.interfaces, shopHeader.IsOrdinaryName i.name
        ∧ ∃ d ∈ assembleHeader shopHeader,
          mapType (.ofHeader shopHeader) none (i.name ++ " *") = d.name)
      ∧ (∃ e ∈ shopHeader.enums, ∃ name ∈ e.name?,
        shopHeader.IsOrdinaryName name
          ∧ mapType (.ofHeader shopHeader) none name
            = (bindEnum e name).name)
      ∧ (∃ s ∈ shopHeader.structs, shopHeader.IsOrdinaryName s.name
        ∧ mapType (.ofHeader shopHeader) none s.name
          = (bindStruct (.ofHeader shopHeader) s).name)
      ∧ ∃ a ∈ shopHeader.aliases, IsPlainName a.name
        ∧ mapType (.ofHeader shopHeader) none a.name
          = (bindDelegate (.ofHeader shopHeader) a).name := by
  obtain ⟨hclasses, henums, hstructs, hblocks⟩ :=
    references_agree shopHeader none
  refine ⟨?_, ?_, ?_, ?_⟩
  · obtain ⟨i, hi, hprimary, hn, hend⟩ : ∃ i ∈ shopHeader.interfaces,
        i.category? = none ∧ shopHeader.IsOrdinaryName i.name
          ∧ ¬ EndsInBlock i.name ∧ (∀ s ∈ shopHeader.structs,
            s.name ≠ i.name) ∧ ∀ e ∈ shopHeader.enums,
              e.name? ≠ some i.name := by
      decide +kernel
    obtain ⟨d, hd, -, -, hiff⟩ := hclasses i hi hprimary hn
    exact ⟨i, hi, hn, d, hd, hiff.mpr hend⟩
  · obtain ⟨e, he, name, hname, hn, hend⟩ : ∃ e ∈ shopHeader.enums,
        ∃ name ∈ e.name?, shopHeader.IsOrdinaryName name
          ∧ ¬ EndsInBlock name := by
      decide +kernel
    exact ⟨e, he, name, hname, hn, (henums e he name hname hn).2.mpr hend⟩
  · obtain ⟨s, hs, hfields, hn, hend⟩ : ∃ s ∈ shopHeader.structs,
        s.fields ≠ [] ∧ shopHeader.IsOrdinaryName s.name
          ∧ ¬ EndsInBlock s.name := by
      decide +kernel
    exact ⟨s, hs, hn, (hstructs s hs hfields hn).2.mpr hend⟩
  · obtain ⟨a, ha, hblock, hn⟩ : ∃ a ∈ shopHeader.aliases,
        a.isBlock = true ∧ IsPlainName a.name := by
      decide +kernel
    exact ⟨a, ha, hn, (hblocks a ha hblock hn).2⟩

/-- A class whose name ends in `Block`. -/
def blockClass : Header :=
  readHeader {} "" "@interface DataBlock\n@end\n"

/-- It is declared under its name, but a pointer to it is mapped to another
one. -/
theorem not_references_agree_dataBlock :
    ¬ ∀ i ∈ blockClass.interfaces, i.category? = none →
      blockClass.IsOrdinaryName i.name →
        ∃ d ∈ assembleHeader blockClass, d.kind = .interface
          ∧ d.name = i.name
          ∧ mapType (.ofHeader blockClass) none (i.name ++ " *")
            = d.name := by
  intro hall
  obtain ⟨i, hi, hprimary, hn, hend⟩ : ∃ i ∈ blockClass.interfaces,
      i.category? = none ∧ blockClass.IsOrdinaryName i.name
        ∧ EndsInBlock i.name := by
    decide +kernel
  obtain ⟨d, -, -, hname, htype⟩ := hall i hi hprimary hn
  exact ((hn.mapType_pointer_eq_iff none).mp (htype.trans hname)).1 hend

end HeaderBinding
