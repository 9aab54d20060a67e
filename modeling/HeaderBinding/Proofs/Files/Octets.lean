/-
What the files of a tree hold.

* `FileTree.octetsAt?`: the octets of a file; `textOf?`: the text that is
  read of them;
* `FileTree.SameFiles`: from one tree to another no file is new, gone or
  changed, whatever has become of the folders; `FileTree.Emptied`: one file
  has been emptied;
* `FileTree.octetsAt?_write`: a file that is written changes no other one,
  and one that cannot be written changes none.
-/
import HeaderBinding.Proofs.Files.Tree

namespace HeaderBinding

/-- The text that is read of the octets of a file, if it is one. -/
def textOf? (octets? : Option (List UInt8)) : Option String :=
  octets?.bind fun octets =>
    (readStrict? octets).map fun cs => String.ofList (unifyLineEnds cs)

namespace FileTree

variable {t t' t'' : FileTree} {p q : Path} {octets : List UInt8}

/-- The octets of the file at a place, if there is one. -/
def octetsAt? (t : FileTree) (p : Path) : Option (List UInt8) :=
  match t.entry? p with
  | some (.file octets) => some octets
  | _ => none

lemma textAt?_eq_textOf? (t : FileTree) (p : Path) :
    t.textAt? p = textOf? (t.octetsAt? p) := by
  rw [textAt?, octetsAt?]
  rcases t.entry? p with _ | _ | _ <;> rfl

lemma octetsAt?_eq_none (h : t.entry? p = none) : t.octetsAt? p = none := by
  rw [octetsAt?, h]

lemma ChangedOnly.octetsAt?_eq {places : Path → Prop}
    (h : ChangedOnly places t t') (hp : ¬ places p) :
    t'.octetsAt? p = t.octetsAt? p := by
  rw [octetsAt?, h.entry?_eq hp, ← octetsAt?]

/-! ### Trees with the same files -/

/-- At every place there is the same file, or none. -/
def SameFiles (t t' : FileTree) : Prop :=
  ∀ p, t'.octetsAt? p = t.octetsAt? p

namespace SameFiles

lemma refl (t : FileTree) : SameFiles t t :=
  fun _ => rfl

lemma trans (h : SameFiles t t') (h' : SameFiles t' t'') :
    SameFiles t t'' :=
  fun p => (h' p).trans (h p)

end SameFiles

/-- From one tree to another the file at a place has lost what it held, if
there was one, and all others are as they were. -/
def Emptied (t t' : FileTree) (p : Path) : Prop :=
  ∀ q, t'.octetsAt? q = if p = q then some [] else t.octetsAt? q

/-! ### Folders -/

/-- A folder is made where there is no file, and leaves none. -/
lemma sameFiles_addFolder (t : FileTree) (p : Path) :
    SameFiles t (t.addFolder p) := by
  intro q
  cases hp : t.has p with
  | true => rw [addFolder, hp, if_pos rfl]
  | false =>
      rw [addFolder, hp, if_neg Bool.false_ne_true]
      by_cases hq : q = p
      · have hroot : p ≠ [] := by
          rintro rfl
          cases hp
        rw [has, Option.isSome_eq_false_iff, Option.isNone_iff_eq_none] at hp
        rw [hq, octetsAt?_eq_none hp, octetsAt?, entry?_put_self hroot]
      · exact (changedOnly_put t p .folder).octetsAt?_eq hq

lemma sameFiles_foldl_addFolder (t : FileTree) (ps : List Path) :
    SameFiles t (ps.foldl addFolder t) := by
  induction ps generalizing t with
  | nil => exact .refl t
  | cons p ps ih => exact (sameFiles_addFolder t p).trans (ih _)

/-- Folders are made, or cannot be, without any change of a file. -/
lemma sameFiles_makeFolder (t : FileTree) (p : Path) :
    SameFiles t (t.makeFolder p).1 := by
  rw [makeFolder]
  split
  · exact .refl t
  split
  · exact .refl t
  · exact sameFiles_foldl_addFolder t _

/-! ### Files -/

/-- A file that cannot be written leaves all files as they are. -/
lemma sameFiles_of_write {fault : FolderFault}
    (h : t.write p octets = (t', some fault)) : SameFiles t t' := by
  have hmade := sameFiles_makeFolder t p.folder
  rw [write] at h
  split at h
  · rename_i mid f hmake
    obtain ⟨rfl, -⟩ := Prod.mk.inj h
    rwa [hmake] at hmade
  · rename_i mid hmake
    split at h
    · cases h
    · obtain ⟨rfl, -⟩ := Prod.mk.inj h
      rwa [hmake] at hmade

/-- A file that is written holds its octets, and all others are as they
were. -/
lemma octetsAt?_of_write (hp : p ≠ [])
    (h : t.write p octets = (t', none)) (q : Path) :
    t'.octetsAt? q = if p = q then some octets else t.octetsAt? q := by
  split
  · rename_i hq
    rw [← hq, octetsAt?, entry?_of_write hp h]
  · rename_i hq
    obtain ⟨-, -, -, rfl⟩ := of_write_eq_none h
    rw [(changedOnly_put _ p (.file octets)).octetsAt?_eq (Ne.symm hq),
      addFolders, sameFiles_foldl_addFolder]

end FileTree

end HeaderBinding
