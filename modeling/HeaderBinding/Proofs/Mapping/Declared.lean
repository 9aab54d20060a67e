/-
Which names a header gives to types.

* `mem_structs_ofHeader`, `mem_enums_ofHeader`, `mem_blocks_ofHeader`: the
  names of its structures, enumerations and block types;
* `mem_functionPointers_ofHeader`, `mem_aliases_ofHeader`: pointers to
  functions and other aliases come from its aliases.
-/
import Mathlib.Tactic.Lemma
import HeaderBinding.Mapping.Context

namespace HeaderBinding

/-- The names that one header gives to types. -/
def TypeContext.ofHeader (h : Header) : TypeContext :=
  .ofHeaders [h]

/-! ### Folds -/

section Folds

variable {α β : Type} {f : β → α → β} {P : α → Prop} {Q : β → Prop}

/-- What only single steps can bring about comes from one of them. -/
lemma holds_of_foldl (hstep : ∀ b a, Q (f b a) → Q b ∨ P a)
    {as : List α} {b : β} (h : Q (as.foldl f b)) :
    Q b ∨ ∃ a ∈ as, P a := by
  induction as generalizing b with
  | nil => exact .inl h
  | cons a as ih =>
      rcases ih h with h | ⟨x, hx, hp⟩
      · exact (hstep b a h).imp_right
          fun hp => ⟨a, List.mem_cons_self, hp⟩
      · exact .inr ⟨x, List.mem_cons_of_mem _ hx, hp⟩

/-- What each step keeps, and some bring about, holds if one of these is
there. -/
lemma holds_foldl (hkeep : ∀ b a, Q b → Q (f b a))
    (hstep : ∀ b a, P a → Q (f b a)) {as : List α} {b : β}
    (h : Q b ∨ ∃ a ∈ as, P a) : Q (as.foldl f b) := by
  induction as generalizing b with
  | nil => simpa using h
  | cons a as ih =>
      refine ih ?_
      rcases h with h | ⟨x, hx, hp⟩
      · exact .inl (hkeep b a h)
      · rcases List.mem_cons.mp hx with rfl | hx
        · exact .inl (hstep b _ hp)
        · exact .inr ⟨x, hx, hp⟩

lemma holds_foldl_iff (hstep : ∀ b a, Q (f b a) ↔ Q b ∨ P a)
    (as : List α) (b : β) :
    Q (as.foldl f b) ↔ Q b ∨ ∃ a ∈ as, P a :=
  ⟨holds_of_foldl fun b a => (hstep b a).mp,
    holds_foldl (fun b a h => (hstep b a).mpr (.inl h))
      fun b a h => (hstep b a).mpr (.inr h)⟩

/-- What each step leaves alone stays as it is. -/
lemma foldl_eq {γ : Type} {v : β → γ}
    (hstep : ∀ b a, v (f b a) = v b) (as : List α) (b : β) :
    v (as.foldl f b) = v b := by
  induction as generalizing b with
  | nil => rfl
  | cons a as ih => exact (ih (f b a)).trans (hstep b a)

end Folds

/-! ### Steps -/

lemma mem_insertName {name other : String} {names : List String} :
    name ∈ insertName other names ↔ name ∈ names ∨ other = name := by
  unfold insertName
  split
  · rename_i h
    refine ⟨.inl, fun hn => hn.elim id ?_⟩
    rintro rfl
    exact List.contains_iff_mem.mp h
  · simp [eq_comm]

lemma mem_putField {key : String} {value : String}
    {entry : String × String} {fs : List (String × String)}
    (h : entry ∈ putField key value fs) :
    entry ∈ fs ∨ entry = (key, value) := by
  induction fs with
  | nil => exact .inr (List.mem_singleton.mp h)
  | cons f fs ih =>
      rw [putField] at h
      split at h
      · rcases List.mem_cons.mp h with rfl | h
        · exact .inr rfl
        · exact .inl (List.mem_cons_of_mem _ h)
      · rcases List.mem_cons.mp h with rfl | h
        · exact .inl List.mem_cons_self
        · exact (ih h).imp_left (List.mem_cons_of_mem _)

namespace TypeContext

variable (ctx : TypeContext)

lemma mem_structs_addStruct (s : StructDef) (name : String) :
    name ∈ (ctx.addStruct s).structs
      ↔ name ∈ ctx.structs ∨ (s.name ≠ "" ∧ s.name = name) := by
  unfold addStruct
  split <;> simp_all [mem_insertName]

lemma mem_enums_addEnum (e : EnumDef) (name : String) :
    name ∈ (ctx.addEnum e).enums
      ↔ name ∈ ctx.enums ∨ (name ≠ "" ∧ e.name? = some name) := by
  unfold addEnum
  split
  · rename_i n hn
    rw [hn]
    split
    · simp_all
    · rw [mem_insertName, Option.some_inj]
      refine or_congr_right ⟨?_, fun h => h.2⟩
      rintro rfl
      exact ⟨by assumption, rfl⟩
  · simp_all

lemma mem_blocks_addAlias (a : Alias) (name : String) :
    name ∈ (ctx.addAlias a).blocks
      ↔ name ∈ ctx.blocks
        ∨ (a.name ≠ "" ∧ a.isBlock = true ∧ a.name = name) := by
  unfold addAlias
  repeat' split
  all_goals simp_all [mem_insertName]

lemma mem_functionPointers_addAlias (a : Alias) (name : String) :
    name ∈ (ctx.addAlias a).functionPointers
      ↔ name ∈ ctx.functionPointers
        ∨ (a.name ≠ "" ∧ a.isBlock = false ∧ a.isFunctionPointer = true
          ∧ a.name = name) := by
  unfold addAlias
  repeat' split
  all_goals simp_all [mem_insertName]

lemma mem_aliases_addAlias (a : Alias) (entry : String × String)
    (h : entry ∈ (ctx.addAlias a).aliases) :
    entry ∈ ctx.aliases ∨ entry = (a.name, a.target) := by
  unfold addAlias at h
  repeat' split at h
  all_goals first | exact .inl h | exact mem_putField h

lemma addEnum_eq (e : EnumDef) :
    (ctx.addEnum e).structs = ctx.structs
      ∧ (ctx.addEnum e).blocks = ctx.blocks
      ∧ (ctx.addEnum e).functionPointers = ctx.functionPointers
      ∧ (ctx.addEnum e).aliases = ctx.aliases := by
  unfold addEnum
  repeat' split
  all_goals exact ⟨rfl, rfl, rfl, rfl⟩

lemma addStruct_eq (s : StructDef) :
    (ctx.addStruct s).enums = ctx.enums
      ∧ (ctx.addStruct s).blocks = ctx.blocks
      ∧ (ctx.addStruct s).functionPointers = ctx.functionPointers
      ∧ (ctx.addStruct s).aliases = ctx.aliases := by
  unfold addStruct
  split <;> exact ⟨rfl, rfl, rfl, rfl⟩

lemma addAlias_eq (a : Alias) :
    (ctx.addAlias a).enums = ctx.enums
      ∧ (ctx.addAlias a).structs = ctx.structs := by
  unfold addAlias
  repeat' split
  all_goals exact ⟨rfl, rfl⟩

/-! ### One header -/

variable {h : Header} {name : String}

lemma ofHeader_eq (h : Header) :
    ofHeader h = h.structs.foldl addStruct
      (h.enums.foldl addEnum (h.aliases.foldl addAlias {})) := rfl

theorem mem_structs_ofHeader :
    name ∈ (ofHeader h).structs
      ↔ ∃ s ∈ h.structs, s.name ≠ "" ∧ s.name = name := by
  rw [ofHeader_eq, holds_foldl_iff (Q := fun ctx => name ∈ ctx.structs)
      fun ctx s => mem_structs_addStruct ctx s name,
    foldl_eq (v := structs) fun ctx e => (addEnum_eq ctx e).1,
    foldl_eq (v := structs) fun ctx a => (addAlias_eq ctx a).2]
  simp

theorem mem_enums_ofHeader :
    name ∈ (ofHeader h).enums
      ↔ ∃ e ∈ h.enums, name ≠ "" ∧ e.name? = some name := by
  rw [ofHeader_eq, foldl_eq (v := enums) fun ctx s => (addStruct_eq ctx s).1,
    holds_foldl_iff (Q := fun ctx => name ∈ ctx.enums)
      fun ctx e => mem_enums_addEnum ctx e name,
    foldl_eq (v := enums) fun ctx a => (addAlias_eq ctx a).1]
  simp

theorem mem_blocks_ofHeader :
    name ∈ (ofHeader h).blocks
      ↔ ∃ a ∈ h.aliases,
        a.name ≠ "" ∧ a.isBlock = true ∧ a.name = name := by
  rw [ofHeader_eq,
    foldl_eq (v := blocks) fun ctx s => (addStruct_eq ctx s).2.1,
    foldl_eq (v := blocks) fun ctx e => (addEnum_eq ctx e).2.1,
    holds_foldl_iff (Q := fun ctx => name ∈ ctx.blocks)
      fun ctx a => mem_blocks_addAlias ctx a name]
  simp

theorem mem_functionPointers_ofHeader :
    name ∈ (ofHeader h).functionPointers
      ↔ ∃ a ∈ h.aliases, a.name ≠ "" ∧ a.isBlock = false
        ∧ a.isFunctionPointer = true ∧ a.name = name := by
  rw [ofHeader_eq,
    foldl_eq (v := functionPointers)
      fun ctx s => (addStruct_eq ctx s).2.2.1,
    foldl_eq (v := functionPointers)
      fun ctx e => (addEnum_eq ctx e).2.2.1,
    holds_foldl_iff (Q := fun ctx => name ∈ ctx.functionPointers)
      fun ctx a => mem_functionPointers_addAlias ctx a name]
  simp

theorem mem_aliases_ofHeader {entry : String × String}
    (hn : entry ∈ (ofHeader h).aliases) :
    ∃ a ∈ h.aliases, entry = (a.name, a.target) := by
  rw [ofHeader_eq,
    foldl_eq (v := aliases) fun ctx s => (addStruct_eq ctx s).2.2.2,
    foldl_eq (v := aliases) fun ctx e => (addEnum_eq ctx e).2.2.2] at hn
  have := holds_of_foldl (Q := fun ctx => entry ∈ ctx.aliases)
    (fun ctx a => mem_aliases_addAlias ctx a entry) hn
  simpa using this

end TypeContext

end HeaderBinding
