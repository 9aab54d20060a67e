/-
Reading a header is total, and goes through its tokens in order.

* `Descends`: rows one behind the other, each reached from the row before
  it, with fewer tokens left;
* `LoopsMove`: every round of a loop moves the place of reading, or is the
  last; `loopsMove` proves it for all loops of the grammar;
* `Remarked.exists_places`: remarks made in order stand at tokens whose
  places in the row do not decrease;
* `readTokens_total`: the header of any row of tokens.
-/
import HeaderBinding.Proofs.Header.Orderly

namespace HeaderBinding

open Production

/-! ### Rows one behind the other -/

/-- Each row is reached from the row before it, with fewer tokens left. -/
def Descends (rows : List (List Token)) : Prop :=
  rows.IsChain fun a b => Reaches a b ∧ b.length < a.length

lemma Descends.reaches_of_mem {row : List Token} {rows : List (List Token)}
    (h : Descends (row :: rows)) : ∀ r ∈ row :: rows, Reaches row r := by
  induction rows generalizing row with
  | nil =>
      intro r hr
      rw [List.mem_singleton.mp hr]
      exact .refl row
  | cons next rows ih =>
      obtain ⟨⟨hstep, -⟩, hrest⟩ := List.isChain_cons_cons.mp h
      intro r hr
      rcases List.mem_cons.mp hr with rfl | hr
      · exact .refl r
      · exact hstep.trans (ih hrest r hr)

/-! ### Loops -/

/-- A production that a loop repeats: it keeps its place, and whenever it
yields something, so that the loop goes on, fewer tokens are left. -/
def Production.LoopBody {α : Type} (p : Production (Option α)) : Prop :=
  p.Onward ∧ p.Moves

/-- The items of a container keep their place and move unless they fail;
and the rows from which they are read descend, also behind an item that
fails. -/
def ContainerLoop {σ α : Type} (stops : List TokenKind)
    (one : σ → List Token → Reading σ α) (report : Failure → α)
    (remark? : α → Option Diagnostic) : Prop :=
  AllOrderly stops one remark?
    ∧ ∀ s ts, Descends (rowsRead stops one report s ts)

lemma AllOrderly.containerLoop {σ α : Type} {stops : List TokenKind}
    {one : σ → List Token → Reading σ α} {remark? : α → Option Diagnostic}
    (h : AllOrderly stops one remark?) (report : Failure → α) :
    ContainerLoop stops one report remark? :=
  ⟨h, fun s ts => h.isChain_rowsRead s ts⟩

/-- Every round of a loop keeps its place, and moves or is the last. -/
structure LoopsMove : Prop where
  items : ContainerLoop [] readItem Item.ofFailure Item.remark?
  classParts :
    ContainerLoop bodyStops readClassPart ClassPart.ofFailure ClassPart.remark?
  protocolParts :
    ContainerLoop bodyStops readProtocolPart ProtocolPart.ofFailure
      ProtocolPart.remark?
  fieldGroups : ∀ ts, atEnd ts = false → (readFieldGroup ts).Keeps ts
    ∧ ∀ fields, (readFieldGroup ts).result = .ok fields →
      (readFieldGroup ts).rest.length < ts.length
  arraySizes : arraySize.LoopBody
  enumCases : enumCase.LoopBody
  segments : furtherSegment.LoopBody
  parameters : functionParameter.LoopBody
  behindCommas : ∀ {α : Type} (p : Production α), p.Onward →
    LoopBody (do if ← accept .comma then return some (← p) else return none)

theorem loopsMove : LoopsMove where
  items := allOrderly_readItem.containerLoop _
  classParts := allOrderly_readClassPart.containerLoop _
  protocolParts := allOrderly_readProtocolPart.containerLoop _
  fieldGroups _ hend := keeps_readFieldGroup hend
  arraySizes := ⟨onward_arraySize, moves_arraySize⟩
  enumCases := onward_moves_enumCase
  segments := ⟨onward_furtherSegment, moves_furtherSegment⟩
  parameters := ⟨onward_functionParameter, moves_functionParameter⟩
  behindCommas p hp := by
    have hbody : (p >>= fun a => pure (some a)).Onward :=
      hp.bind fun _ => onward_pure _
    exact ⟨(onward_accept (by decide)).bind fun _ =>
      hbody.ite (onward_pure _), hbody.moves_behindMark⟩

/-! ### Remarks and tokens -/

/-- The remark has the line and the column of the token. -/
def Diagnostic.Of (d : Diagnostic) (t : Token) : Prop :=
  d.line = t.line ∧ d.column = t.column

/-- What is left of the tokens behind a place begins at a later place. -/
lemma Reaches.exists_drop {row place : List Token} {k : Nat}
    (h : Reaches (row.drop k) place) : ∃ i, k ≤ i ∧ place = row.drop i := by
  refine ⟨k + ((row.drop k).length - place.length), Nat.le_add_right _ _, ?_⟩
  rw [← List.drop_drop]
  exact List.suffix_iff_eq_drop.mp h.suffix

/-- Remarks that are made in order stand at tokens whose places in the
row do not decrease. -/
lemma Remarked.exists_places {row rest : List Token}
    {ds : List Diagnostic} {k : Nat} (hc : Closed (row.drop k))
    (h : Remarked (row.drop k) rest ds) :
    ∃ places : List Nat, (∀ i ∈ places, k ≤ i) ∧ places.Pairwise (· ≤ ·)
      ∧ List.Forall₂ (fun d i => ∃ t, row[i]? = some t ∧ d.Of t)
        ds places := by
  -- the place of each remark is a lower bound for those behind it
  generalize hts : row.drop k = ts at h
  induction h generalizing k with
  | nil => exact ⟨[], by simp, .nil, .nil⟩
  | @cons ts place rest d ds hreach hd _ ih =>
      subst hts
      obtain ⟨i, hki, rfl⟩ := hreach.exists_drop
      have hcplace := hreach.closed hc
      obtain ⟨places, hle, hpair, hall⟩ := ih hcplace rfl
      have hnext := head?_eq_nextToken hcplace.ne_nil
      rw [List.head?_drop] at hnext
      refine ⟨i :: places, ?_, .cons hle hpair, .cons ⟨_, hnext, hd⟩ hall⟩
      intro j hj
      rcases List.mem_cons.mp hj with rfl | hj
      · exact hki
      · exact Nat.le_trans hki (hle j hj)

/-! ### Any row of tokens -/

/-- A row that is closed is the row itself, or the row with a token for
the end put behind it. -/
lemma closeTokens_eq (ts : List Token) :
    closeTokens ts = ts
      ∨ ∃ line, closeTokens ts = ts ++ [⟨.endOfInput, "", line, 1⟩] := by
  unfold closeTokens
  split
  · rename_i h
    rw [List.getLast?_eq_none_iff.mp h]
    exact .inr ⟨1, rfl⟩
  · split
    · exact .inl rfl
    · rename_i t _ _
      exact .inr ⟨t.line, rfl⟩

/-- Any row of tokens is read as a header, whatever the tokens are.  The
items are read from rows that descend to the end of the row and all have a
next token; each round of each loop moves or is the last; what fails
leaves a remark in place of an item; and the remarks stand at tokens of
the row, in their order. -/
theorem readTokens_total (file : String) (ts : List Token) :
    LoopsMove
      ∧ (closeTokens ts = ts
        ∨ ∃ line, closeTokens ts = ts ++ [⟨.endOfInput, "", line, 1⟩])
      ∧ (∃ rows last,
        rowsRead [] readItem Item.ofFailure false (closeTokens ts)
            = rows ++ [last]
          ∧ (rows ++ [last]).head? = some (closeTokens ts)
          ∧ Descends (rows ++ [last]) ∧ atEnd last = true
          ∧ ∀ row ∈ rows ++ [last], row ≠ [] ∧ row <:+ closeTokens ts)
      ∧ readTokens file ts = Header.ofItems file
        ((places [] readItem false (closeTokens ts)).flatMap
          fun p => (readItem p.1 p.2).found Item.ofFailure)
      ∧ ∃ stands : List Nat, stands.Pairwise (· ≤ ·)
        ∧ List.Forall₂
          (fun d i => ∃ t, (closeTokens ts)[i]? = some t ∧ d.Of t)
          (readTokens file ts).diagnostics stands := by
  have hclosed := closed_closeTokens ts
  refine ⟨loopsMove, closeTokens_eq ts, ?_, ?_, ?_⟩
  · have hchain : Descends
        (rowsRead [] readItem Item.ofFailure false (closeTokens ts)) :=
      loopsMove.items.2 false (closeTokens ts)
    obtain ⟨rows, hrows⟩ := exists_rowsRead_eq_cons [] readItem
      Item.ofFailure false (closeTokens ts)
    have hstops : atEnd (readAll [] readItem Item.ofFailure false
          (closeTokens ts)).2.2 = true
        ∨ headIn [] (readAll [] readItem Item.ofFailure false
          (closeTokens ts)).2.2 = true := readAll_stops _ _
    have hreach : ∀ row ∈ rowsRead [] readItem Item.ofFailure false
        (closeTokens ts), Reaches (closeTokens ts) row := by
      rw [hrows] at hchain ⊢
      exact hchain.reaches_of_mem
    refine ⟨_, _, rfl, ?_, hchain, ?_, fun row hrow =>
      ⟨((hreach row hrow).closed hclosed).ne_nil, (hreach row hrow).suffix⟩⟩
    · show (rowsRead [] readItem Item.ofFailure false
        (closeTokens ts)).head? = _
      rw [hrows, List.head?_cons]
    · refine hstops.resolve_right ?_
      simp [headIn]
  · rw [readTokens, readItems, readAll_fst]
  · have hremarks : Remarked (closeTokens ts)
        (readAll [] readItem Item.ofFailure false (closeTokens ts)).2.2
        (readTokens file ts).diagnostics :=
      allOrderly_readItem.remarked (fun _ => rfl) false (closeTokens ts)
    obtain ⟨stands, -, hsorted, hall⟩ :=
      Remarked.exists_places (k := 0) hclosed hremarks
    exact ⟨stands, hsorted, hall⟩

end HeaderBinding
