/-
What steps of a command give, and what they leave.

* `Action.result`, `exists_of_result_bind`: what a step gives, one step
  behind another;
* `lineText`, `result_forM_say`: lines on a stream;
* `result_loadText_eq_ok_iff`, `result_existingText_eq_ok_iff`: the texts
  of files;
* `result_storeText`, `write_of_storeText`: a file that is stored.
-/
import HeaderBinding.Command.Run
import HeaderBinding.Proofs.Files.Tree

namespace HeaderBinding

namespace Action

variable {α β : Type}

/-! ### One step behind another -/

/-- What a step makes of a console: its value or its fault, and the console
after it. -/
def result (act : Action α) (c : Console) :
    Except CommandFault α × Console :=
  act.run c

lemma result_pure (a : α) (c : Console) :
    (pure a : Action α).result c = (.ok a, c) := rfl

lemma result_throw (f : CommandFault) (c : Console) :
    (throw f : Action α).result c = (.error f, c) := rfl

lemma result_modify (f : Console → Console) (c : Console) :
    (modify f : Action PUnit).result c = (.ok ⟨⟩, f c) := rfl

lemma result_currentFiles (c : Console) :
    currentFiles.result c = (.ok c.tree, c) := rfl

/-- One step behind another. -/
lemma result_bind (act : Action α) (k : α → Action β) (c : Console) :
    (act >>= k).result c =
      match act.result c with
      | (.ok a, mid) => (k a).result mid
      | (.error f, mid) => (.error f, mid) := by
  show (act >>= k) c = match act c with
    | (.ok a, mid) => k a mid
    | (.error f, mid) => (.error f, mid)
  simp only [bind, ExceptT.bind, ExceptT.mk, StateT.bind]
  rcases act c with ⟨f | a, mid⟩ <;> rfl

lemma result_bind_of_ok {act : Action α} {k : α → Action β}
    {c mid : Console} {a : α} (h : act.result c = (.ok a, mid)) :
    (act >>= k).result c = (k a).result mid := by
  rw [result_bind, h]

/-- Two steps succeed one behind the other only if both do. -/
lemma exists_of_result_bind {act : Action α} {k : α → Action β}
    {c last : Console} {b : β}
    (h : (act >>= k).result c = (.ok b, last)) :
    ∃ a mid, act.result c = (.ok a, mid)
      ∧ (k a).result mid = (.ok b, last) := by
  rw [result_bind] at h
  split at h
  · rename_i a mid hact
    exact ⟨a, mid, hact, h⟩
  · cases h

/-- A step of which only the success counts. -/
lemma result_discard_eq_ok_iff {act : Action α} {c c' : Console} :
    (discard act).result c = (.ok ⟨⟩, c')
      ↔ ∃ v, act.result c = (.ok v, c') := by
  have h : (discard act).result c = (act >>= fun _ => pure ⟨⟩).result c := by
    rw [← map_eq_pure_bind]
    rfl
  rw [h]
  constructor
  · intro h
    obtain ⟨v, mid, hact, hrest⟩ := exists_of_result_bind h
    obtain ⟨-, rfl⟩ := Prod.mk.inj hrest
    exact ⟨v, hact⟩
  · rintro ⟨v, hact⟩
    rw [result_bind_of_ok hact, result_pure]

/-- A step for each line. -/
lemma result_forM_cons (f : String → Action Unit) (line : String)
    (lines : List String) (c : Console) :
    ((line :: lines).forM f).result c
      = (f line >>= fun _ => lines.forM f).result c := rfl

end Action

open HeaderBinding.Action

/-! ### Streams -/

/-- Some lines, each with its end. -/
def lineText (lines : List String) : String :=
  String.join (lines.map (· ++ "\n"))

lemma lineText_nil : lineText [] = "" := rfl

lemma lineText_cons (line : String) (lines : List String) :
    lineText (line :: lines) = line ++ "\n" ++ lineText lines := by
  rw [lineText, List.map_cons, String.join_cons, lineText]

lemma lineText_append (lines more : List String) :
    lineText (lines ++ more) = lineText lines ++ lineText more := by
  rw [lineText, List.map_append, String.join_append, lineText, lineText]

@[simp] lemma Console.print_empty (c : Console) (stream : Stream) :
    c.print "" stream = c := by
  cases stream <;> simp only [Console.print, String.append_empty]

@[simp] lemma Console.print_print (c : Console) (s t : String)
    (stream : Stream) :
    (c.print s stream).print t stream = c.print (s ++ t) stream := by
  cases stream <;> simp only [Console.print, String.append_assoc]

@[simp] lemma Console.tree_print (c : Console) (text : String)
    (stream : Stream) : (c.print text stream).tree = c.tree := by
  cases stream <;> rfl

lemma result_print (stream : Stream) (text : String) (c : Console) :
    (print stream text).result c = (.ok (), c.print text stream) := rfl

/-- Lines that go to a stream one after the other. -/
lemma result_forM_say (stream : Stream) (lines : List String)
    (c : Console) :
    (lines.forM (say stream)).result c
      = (.ok (), c.print (lineText lines) stream) := by
  induction lines generalizing c with
  | nil =>
      rw [lineText_nil, Console.print_empty]
      rfl
  | cons line lines ih =>
      rw [result_forM_cons, say, result_bind_of_ok (result_print ..), ih,
        Console.print_print, lineText_cons]

/-! ### Files -/

variable {c c' : Console} {p : Path}

lemma result_lookUp :
    (lookUp p).result c
      = if c.tree.isOverlong p then (.error (.longPlace p), c)
        else (.ok (c.tree.entry? p), c) := by
  rw [lookUp, result_bind_of_ok (result_currentFiles c)]
  split <;> rfl

lemma result_lookUp_eq_ok_iff {e? : Option FileEntry} :
    (lookUp p).result c = (.ok e?, c')
      ↔ c.tree.isOverlong p = false ∧ e? = c.tree.entry? p ∧ c' = c := by
  rw [result_lookUp]
  cases c.tree.isOverlong p <;> simp [eq_comm]

/-- Octets that could be loaded are those of a file. -/
lemma result_loadOctets_eq_ok_iff
    {fault : Path → ReadFault → CommandFault} {octets : List UInt8} :
    (loadOctets p fault).result c = (.ok octets, c')
      ↔ c.tree.entry? p = some (.file octets) ∧ c' = c := by
  rw [loadOctets, result_bind_of_ok (result_currentFiles c),
    FileTree.read]
  split
  · rename_i read hread
    split at hread
    · rename_i held hentry
      obtain rfl := Except.ok.inj hread
      rw [result_pure, hentry]
      simp [eq_comm]
    · cases hread
    · cases hread
  · rename_i f hread
    rw [result_throw]
    split at hread
    · cases hread
    · simp_all
    · simp_all

/-- A text that could be loaded is that of a file. -/
lemma result_loadText_eq_ok_iff
    {fault : Path → ReadFault → CommandFault} {cs : List Char} :
    (loadText p fault).result c = (.ok cs, c')
      ↔ c.tree.textAt? p = some (String.ofList cs) ∧ c' = c := by
  constructor
  · intro h
    obtain ⟨octets, mid, hload, hrest⟩ := exists_of_result_bind h
    obtain ⟨hentry, rfl⟩ := result_loadOctets_eq_ok_iff.mp hload
    rw [FileTree.textAt?, hentry]
    dsimp only
    split at hrest
    · rename_i read hread
      rw [result_pure, Prod.mk.injEq, Except.ok.injEq] at hrest
      rw [hread, Option.map_some, hrest.1]
      exact ⟨rfl, hrest.2.symm⟩
    · cases hrest
  · rintro ⟨htext, rfl⟩
    rw [FileTree.textAt?] at htext
    split at htext
    · rename_i octets hentry
      obtain ⟨read, hread, hcs⟩ := Option.map_eq_some_iff.mp htext
      have hload : (loadOctets p fault).result c' = (.ok octets, c') :=
        result_loadOctets_eq_ok_iff.mpr ⟨hentry, rfl⟩
      rw [loadText, result_bind_of_ok hload, hread]
      rw [String.ofList_inj] at hcs
      rw [← hcs]
      rfl
    · cases htext

/-- The text of a file that may be missing. -/
lemma result_existingText_eq_ok_iff {old : String} :
    (existingText p).result c = (.ok old, c')
      ↔ c.tree.isOverlong p = false ∧ c' = c
        ∧ (c.tree.textAt? p = some old
          ∨ c.tree.entry? p = none ∧ old = "") := by
  rw [existingText]
  cases hlong : c.tree.isOverlong p with
  | true =>
      rw [result_bind, result_lookUp, hlong, if_pos rfl]
      simp
  | false =>
      have hlook : (lookUp p).result c = (.ok (c.tree.entry? p), c) := by
        rw [result_lookUp, hlong, if_neg Bool.false_ne_true]
      rw [result_bind_of_ok hlook]
      cases hentry : c.tree.entry? p with
      | none =>
          have htext : c.tree.textAt? p = none := by
            rw [FileTree.textAt?, hentry]
          rw [Option.isSome_none, if_neg Bool.false_ne_true, result_pure,
            htext]
          simp [eq_comm, and_comm]
      | some e =>
          rw [Option.isSome_some, if_pos rfl]
          constructor
          · intro h
            obtain ⟨cs, mid, hload, hrest⟩ := exists_of_result_bind h
            obtain ⟨htext, rfl⟩ := result_loadText_eq_ok_iff.mp hload
            rw [result_pure, Prod.mk.injEq, Except.ok.injEq] at hrest
            exact ⟨rfl, hrest.2.symm, .inl (hrest.1 ▸ htext)⟩
          · rintro ⟨-, rfl, htext | ⟨hnone, -⟩⟩
            · rw [← String.ofList_toList (s := old)] at htext
              rw [result_bind_of_ok
                (result_loadText_eq_ok_iff.mpr ⟨htext, rfl⟩), result_pure,
                String.ofList_toList]
            · cases hnone

/-- The root has no text. -/
lemma ne_nil_of_result_existingText {old : String}
    (h : (existingText p).result c = (.ok old, c')) : p ≠ [] := by
  rintro rfl
  obtain ⟨-, -, hread | ⟨hnone, -⟩⟩ := result_existingText_eq_ok_iff.mp h
  · cases hread
  · cases hnone

/-- A file is stored, or cannot be made. -/
lemma result_storeText {text : String} {t : FileTree}
    {fault? : Option FolderFault}
    (h : c.tree.write p (encodeUtf8 text.toList) = (t, fault?)) :
    (storeText p text).result c
      = (fault?.elim (.ok ()) fun f => .error (.badFolder p f),
        { c with tree := t }) := by
  rw [storeText, result_bind_of_ok (result_currentFiles c), h]
  dsimp only
  rw [result_bind_of_ok (result_modify _ c)]
  cases fault? <;> rfl

/-- A file that could be stored. -/
lemma write_of_storeText {text : String}
    (h : (storeText p text).result c = (.ok (), c')) :
    c.tree.write p (encodeUtf8 text.toList) = (c'.tree, none)
      ∧ c' = { c with tree := c'.tree } := by
  rcases hwrite : c.tree.write p (encodeUtf8 text.toList) with ⟨t, fault?⟩
  rw [result_storeText hwrite] at h
  cases fault? with
  | none =>
      obtain ⟨-, rfl⟩ := Prod.mk.inj h
      exact ⟨rfl, rfl⟩
  | some f => cases h

end HeaderBinding
