/-
Headers of one declaration.

* `perm_items_ofItems`: a header has the items that were read;
* `readAll_of_item`: an item that is read stands in front of those behind
  it;
* `readTokens_eq_iff`: a header has one declaration and nothing else
  exactly if one item was read, which is that declaration.
-/
import HeaderBinding.Proofs.Header.Spans

namespace HeaderBinding

/-- The declarations and the remarks of a header, kind by kind. -/
def Header.items (h : Header) : List Item :=
  h.interfaces.map Item.interface ++ h.protocols.map Item.proto
    ++ h.enums.map Item.enumeration ++ h.structs.map Item.structure_
    ++ h.aliases.map Item.typeAlias ++ h.functions.map Item.function
    ++ h.forward.classes.map Item.forwardClass
    ++ h.forward.protocols.map Item.forwardProtocol
    ++ h.diagnostics.map Item.remark

/-- A header has the items that were read. -/
theorem perm_items_ofItems (file : String) (items : List Item) :
    (Header.ofItems file items).items.Perm items := by
  rw [List.perm_iff_count]
  intro j
  induction items with
  | nil => rfl
  | cons i items ih =>
      rw [List.count_cons, ← ih]
      simp only [Header.items, Header.ofItems, List.count_append]
      cases i <;>
        simp only [List.filterMap_cons, List.map_cons, List.count_cons,
          Item.interface?, Item.proto?, Item.enumeration?, Item.structure?,
          Item.typeAlias?, Item.function?, Item.forwardClass?,
          Item.forwardProtocol?, Item.remark?] <;> omega

/-- The item of a header of one declaration. -/
lemma eq_singleton_of_ofItems {file : String} {items : List Item} {i : Item}
    (h : Header.ofItems file items = Header.ofItems file [i]) :
    items = [i] := by
  have hperm := perm_items_ofItems file items
  rw [h] at hperm
  exact List.perm_singleton.mp
    (hperm.symm.trans (perm_items_ofItems file [i]))

/-- What is read of a declaration stands in front of what is read behind
it. -/
lemma readAll_of_item {s s' : Bool} {ts rest : List Token}
    {items : List Item} (hend : atEnd ts = false)
    (h : readItem s ts = ⟨items, s', rest, none⟩)
    (hlt : rest.length < ts.length) :
    (readAll [] readItem Item.ofFailure s ts).1
      = items ++ (readAll [] readItem Item.ofFailure s' rest).1 := by
  rw [readAll, dif_neg (not_stop_iff.mpr hend)]
  simp [h, Reading.next, hlt]

lemma readAll_end {e : Token} (he : e.kind = .endOfInput) (s : Bool) :
    (readAll [] readItem Item.ofFailure s [e]).1 = [] := by
  rw [readAll, dif_pos (.inl (by simp [he]))]

/-- A header has one declaration and nothing else exactly if one item is
read. -/
theorem readTokens_eq_iff {file : String} {ts : List Token} {i : Item}
    (h : Closed ts) :
    readTokens file ts = Header.ofItems file [i]
      ↔ (readAll [] readItem Item.ofFailure false ts).1 = [i] := by
  obtain ⟨e, hlast, he⟩ := h
  have hclose : closeTokens ts = ts := by
    simp [closeTokens, hlast, he]
  rw [readTokens, readItems, hclose]
  exact ⟨eq_singleton_of_ofItems, congrArg (Header.ofItems file)⟩

end HeaderBinding
