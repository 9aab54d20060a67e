/-
Headers that can be bound: no type in them leads to itself.

* `Header.Settles`: the map of every place ends, and there is an answer for
  every slot; `isSettled_iff`: this is what is tested;
* `assembleHeaders?_eq_some_iff`: some headers are bound exactly if all of
  them settle once their categories are folded;
* `assembleHeader?_eq_some_iff`: so for a header by itself.
-/
import HeaderBinding.Binding.Place
import HeaderBinding.Proofs.Binding.Members
import HeaderBinding.Proofs.Mapping.Answers

namespace HeaderBinding

variable {ctx : TypeContext}

/-- No type of the header leads to itself: the map of its places ends, and
it is settled which slots are references. -/
structure Header.Settles (ctx : TypeContext) (h : Header) : Prop where
  places : ∀ p ∈ h.places ctx, Ends ctx p.self? p.type.toList
  slots : ∀ type ∈ h.slots ctx, Answers ctx type.toList

theorem isSettled_iff {h : Header} :
    h.isSettled ctx = true ↔ h.Settles ctx := by
  simp only [Header.isSettled, Bool.and_eq_true, List.all_eq_true,
    isSome_mapType?_iff, isSome_isObjectReference?_iff]
  exact ⟨fun ⟨hplaces, hslots⟩ => ⟨hplaces, hslots⟩,
    fun h => ⟨h.places, h.slots⟩⟩

/-- A header that settles gets its declarations, and no other does. -/
lemma declarations?_eq_some_iff {h : Header} {ds : List Declaration} :
    h.declarations? ctx = some ds
      ↔ h.Settles ctx ∧ ds = h.declarations ctx := by
  rw [Header.declarations?, ← isSettled_iff]
  split
  · rename_i hsettled
    rw [Option.some.injEq, eq_comm]
    exact (and_iff_right hsettled).symm
  · rename_i hsettled
    exact iff_of_false nofun fun h => hsettled h.1

lemma mapM_declarations?_eq_some_iff {hs : List Header}
    {dss : List (List Declaration)} :
    hs.mapM (Header.declarations? ctx) = some dss
      ↔ (∀ h ∈ hs, h.Settles ctx)
        ∧ dss = hs.map (Header.declarations ctx) := by
  induction hs generalizing dss with
  | nil => simp [eq_comm]
  | cons h hs ih =>
      simp only [List.mapM_cons, Option.bind_eq_bind,
        Option.bind_eq_some_iff, Option.pure_def, Option.some.injEq,
        declarations?_eq_some_iff, ih, List.forall_mem_cons, List.map_cons]
      constructor
      · rintro ⟨_, ⟨hh, rfl⟩, _, ⟨hhs, rfl⟩, rfl⟩
        exact ⟨⟨hh, hhs⟩, rfl⟩
      · rintro ⟨⟨hh, hhs⟩, rfl⟩
        exact ⟨_, ⟨hh, rfl⟩, _, ⟨hhs, rfl⟩, rfl⟩

/-- Some headers are bound together exactly if each of them settles once
the categories are folded. -/
theorem assembleHeaders?_eq_some_iff {hs : List Header}
    {dss : List (List Declaration)} :
    assembleHeaders? hs = some dss
      ↔ (∀ h ∈ mergeCategories hs, h.Settles (.ofHeaders hs))
        ∧ dss = assembleHeaders hs :=
  mapM_declarations?_eq_some_iff

theorem isSome_assembleHeaders?_iff {hs : List Header} :
    (assembleHeaders? hs).isSome = true
      ↔ ∀ h ∈ mergeCategories hs, h.Settles (.ofHeaders hs) := by
  rw [Option.isSome_iff_exists]
  simp only [assembleHeaders?_eq_some_iff, exists_and_left, exists_eq,
    and_true]

/-- Headers with a place that leads to itself are not bound. -/
lemma assembleHeaders?_eq_none {hs : List Header} {p : Place}
    (hp : p ∈ (mergeCategories hs).flatMap (·.places (.ofHeaders hs)))
    {before behind : String}
    (h : mapStep (.ofHeaders hs) p.self? p.type.toList
      = .again before p.type.toList behind) :
    assembleHeaders? hs = none := by
  rw [Option.eq_none_iff_forall_ne_some]
  intro dss hdss
  obtain ⟨hsettles, -⟩ := assembleHeaders?_eq_some_iff.mp hdss
  obtain ⟨header, hheader, hp⟩ := List.mem_flatMap.mp hp
  exact not_ends_of_again_self h ((hsettles header hheader).places p hp)

/-- A header is bound by itself exactly if it settles once its categories
are folded. -/
theorem assembleHeader?_eq_some_iff {h : Header} {ds : List Declaration} :
    assembleHeader? h = some ds
      ↔ h.merged.Settles (.ofHeader h) ∧ ds = assembleHeader h := by
  simp only [assembleHeader?, Option.map_eq_some_iff,
    assembleHeaders?_eq_some_iff, mergeCategories_singleton,
    List.forall_mem_singleton, and_assoc, exists_and_left, exists_eq_left]
  exact and_congr_right fun _ => eq_comm

end HeaderBinding
