/-
Which classes of a header are read when nothing is remarked on.

* `readSpans`: the tokens that each declaration was read from;
  `flatten_readSpans`: together they are all tokens before the end;
* `Interface.NamedBy`: the name of a class stands behind its keyword;
* `forall₂_interfaces_readRows`: without a remark, there is one class for
  each declaration that begins with the keyword, and no other;
* `keepsInterfaces_iff`: so every keyword has its class exactly if none is
  run over by a declaration that begins before it.
-/
import Mathlib.Data.List.Infix
import HeaderBinding.Proofs.Header.Orderly
import HeaderBinding.Proofs.Token.Account

namespace HeaderBinding

open Production

/-! ### Rows that end once -/

/-- What is left of a row that ends once is a row that ends once. -/
lemma Reaches.endsOnce {ts rest : List Token} (h : Reaches ts rest)
    (he : EndsOnce ts) : EndsOnce rest := by
  induction h with
  | refl => exact he
  | pass hk _ ih =>
      cases he with
      | last h => exact absurd h hk
      | cons _ hr => exact ih hr

/-- At the end of such a row nothing stands but the end. -/
lemma EndsOnce.eq_singleton {ts : List Token} (h : EndsOnce ts)
    (hend : atEnd ts = true) : ∃ e, ts = [e] ∧ e.kind = .endOfInput := by
  cases h with
  | @last e h => exact ⟨e, rfl, h⟩
  | cons h _ =>
      exact absurd hend (Bool.eq_false_iff.mp (atEnd_cons_eq_false.mpr h))

/-- Such a row needs no other end. -/
lemma EndsOnce.closeTokens_eq {ts : List Token} (h : EndsOnce ts) :
    closeTokens ts = ts := by
  obtain ⟨us, e, rfl, he, -⟩ := h.exists_append
  simp [closeTokens, he]

/-! ### The tokens of each declaration -/

/-- The rows from which the declarations of a header are read. -/
def readRows (s : Bool) (ts : List Token) : List (List Token) :=
  (places [] readItem s ts).map (·.2)

/-- The tokens that an item was read from: those before the place of the
next item. -/
def spanAt (s : Bool) (ts : List Token) : List Token :=
  ts.take (ts.length - ((readItem s ts).next ts).length)

/-- The tokens of each declaration of a header. -/
def readSpans (s : Bool) (ts : List Token) : List (List Token) :=
  (places [] readItem s ts).map fun p => spanAt p.1 p.2

lemma not_headIn_nil (ts : List Token) : headIn [] ts = false := by
  cases ts <;> rfl

lemma reaches_next_item (s : Bool) {ts : List Token}
    (hend : atEnd ts = false) :
    Reaches ts ((readItem s ts).next ts) := by
  have h := allOrderly_readItem s ts hend (not_headIn_nil ts)
  exact h.reaches.trans (h.reaches_next hend)

lemma spanAt_append (s : Bool) {ts : List Token} (hend : atEnd ts = false) :
    spanAt s ts ++ (readItem s ts).next ts = ts := by
  have hdrop := List.suffix_iff_eq_drop.mp (reaches_next_item s hend).suffix
  conv_rhs => rw [← List.take_append_drop
    (ts.length - ((readItem s ts).next ts).length) ts]
  rw [spanAt, ← hdrop]

/-- An item is read from its first token on. -/
lemma exists_spanAt_eq_cons (s : Bool) {ts : List Token}
    (hend : atEnd ts = false) :
    ∃ t rest span, ts = t :: rest ∧ spanAt s ts = t :: span
      ∧ span ++ (readItem s ts).next ts = rest := by
  obtain ⟨t, rest, rfl, -⟩ := exists_cons_of_atEnd_eq_false hend
  have happ := spanAt_append s hend
  have hlt := Reading.length_next_lt (readItem s (t :: rest))
    (List.cons_ne_nil t rest)
  cases hspan : spanAt s (t :: rest) with
  | nil =>
      rw [hspan, List.nil_append] at happ
      rw [happ] at hlt
      exact absurd hlt (Nat.lt_irrefl _)
  | cons u span =>
      rw [hspan, List.cons_append, List.cons.injEq] at happ
      obtain ⟨rfl, happ⟩ := happ
      exact ⟨u, rest, span, rfl, rfl, happ⟩

lemma not_stop_iff {ts : List Token} :
    ¬(atEnd ts ∨ headIn [] ts) ↔ atEnd ts = false := by
  simp [not_headIn_nil]

lemma atEnd_of_stop {ts : List Token} (h : atEnd ts ∨ headIn [] ts) :
    atEnd ts = true := by
  simpa [not_headIn_nil] using h

/-- The declarations and the end are the whole row. -/
lemma flatten_readSpans (s : Bool) {ts : List Token} (h : EndsOnce ts) :
    ∃ e, (readSpans s ts).flatten ++ [e] = ts ∧ e.kind = .endOfInput := by
  unfold readSpans
  fun_induction places [] readItem s ts with
  | case1 s ts hstop =>
      obtain ⟨e, rfl, he⟩ := h.eq_singleton (atEnd_of_stop hstop)
      exact ⟨e, rfl, he⟩
  | case2 s ts hgo ih =>
      have hend := not_stop_iff.mp hgo
      obtain ⟨e, hflat, he⟩ := ih ((reaches_next_item s hend).endsOnce h)
      refine ⟨e, ?_, he⟩
      rw [List.map_cons, List.flatten_cons, List.append_assoc, hflat]
      exact spanAt_append s hend

/-! ### One class at each keyword -/

/-- The class is named by the identifier behind the keyword that the row
begins with. -/
def Interface.NamedBy (i : Interface) (row : List Token) : Prop :=
  ∃ t name rest, row = t :: name :: rest ∧ t.kind = .atInterface
    ∧ name.kind = .identifier ∧ i.name = name.value

/-- The name of a class is the identifier its head begins with. -/
lemma exists_cons_of_interfaceHead {ts rest : List Token}
    {head : Interface} (h : interfaceHead.result ts = (.ok head, rest)) :
    ∃ name us, ts = name :: us ∧ name.kind = .identifier
      ∧ head.name = name.value := by
  obtain ⟨word, mid, hword, h⟩ := exists_of_result_bind h
  obtain ⟨name, hts, hk, rfl⟩ :=
    exists_cons_of_result_expectIdentifier hword
  refine ⟨name, mid, hts, hk, ?_⟩
  -- nothing that is read behind the name changes it
  exact Yields.bind (P := fun head : Interface => head.name = name.value)
    (fun _ => Yields.bind fun _ => Yields.bind fun _ => Yields.bind fun _ =>
      Yields.bind fun _ => Yields.ite
        (Yields.bind fun _ => yields_pure rfl) (yields_pure rfl))
    mid head rest h

lemma items_closeContainer {σ : Type} (items : List Item) (s : σ)
    (ts : List Token) : (closeContainer items s ts).items = items := by
  rcases hres : (expect .atEnd .containerEnd).result ts with ⟨f | u, last⟩
  · rw [closeContainer_of_error hres]
  · rw [closeContainer_of_ok hres]

/-- The items of a class hold the class itself and no other. -/
lemma filterMap_interface?_classItems (head : Interface)
    (parts : List ClassPart) :
    (classItems head parts).filterMap Item.interface?
      = [head.ofParts parts] := by
  have hremarks : ((parts.filterMap ClassPart.remark?).map
      Item.remark).filterMap Item.interface? = [] := by
    rw [List.filterMap_map]
    exact List.filterMap_eq_nil_iff.mpr fun _ _ => rfl
  show head.ofParts parts :: ((parts.filterMap ClassPart.remark?).map
    Item.remark).filterMap Item.interface? = _
  rw [hremarks]

/-- A class that is read without a failure is the one item behind its
keyword that is a class. -/
lemma forall₂_interfaces_readInterface {s : Bool} {t : Token}
    {ts : List Token} (hk : t.kind = .atInterface)
    (hf : (readInterface s ts).failure? = none) :
    List.Forall₂ Interface.NamedBy
      ((readInterface s ts).items.filterMap Item.interface?)
      [t :: ts] := by
  rcases hres : interfaceHead.result ts with ⟨f | head, rest⟩
  · rw [readInterface_of_error hres] at hf
    exact nomatch hf
  · obtain ⟨name, us, rfl, hname, hvalue⟩ :=
      exists_cons_of_interfaceHead hres
    rw [readInterface_of_ok hres]
    dsimp only
    rw [items_closeContainer, filterMap_interface?_classItems]
    exact .cons ⟨t, name, us, rfl, hk, hname, hvalue⟩ .nil

/-! ### No class elsewhere -/

/-- An item that is a part of a protocol is plain. -/
lemma plain_readProtocolPart (s : ProtocolState) (ts : List Token) :
    ∀ p ∈ (readProtocolPart s ts).items, ∀ i, p.item? = some i →
      i.Plain := by
  have hone : ∀ {p : Production ProtocolPart},
      p.Yields (·.item? = none) → ∀ (s : ProtocolState) ts,
      ∀ a ∈ (partReading p s ts).items, ∀ i, a.item? = some i →
        i.Plain := by
    intro p hp s ts a ha i hi
    have hnone : a.item? = none := Yields.forall_reading
      (hp.then fun _ h => yields_pure (List.forall_mem_singleton.mpr h)) s
      ts a ha
    rw [hnone] at hi
    cases hi
  unfold readProtocolPart
  split
  · exact List.forall_mem_nil _
  split
  · exact List.forall_mem_nil _
  · exact List.forall_mem_nil _
  · exact hone (Yields.bind fun _ => yields_pure rfl) _ _
  · exact hone (Yields.bind fun _ => yields_pure rfl) _ _
  · exact hone (Yields.bind fun _ => yields_pure rfl) _ _
  · intro p hp i hi
    obtain ⟨j, hj, rfl⟩ := List.mem_map.mp hp
    exact Option.some.inj hi ▸ allPlain_typedefItems _ _ j hj
  · exact List.forall_mem_nil _

/-- No item in a protocol is a class or a protocol. -/
lemma item?_protocolParts {s : ProtocolState} {ts : List Token} {i : Item}
    (h : i ∈ (readAll bodyStops readProtocolPart ProtocolPart.ofFailure s
      ts).1.filterMap ProtocolPart.item?) :
    i.interface? = none ∧ i.proto? = none := by
  obtain ⟨p, hp, hi⟩ := List.mem_filterMap.mp h
  rw [readAll_fst, List.mem_flatMap] at hp
  obtain ⟨q, -, hp⟩ := hp
  rcases List.mem_append.mp hp with hp | hp
  · have hplain := plain_readProtocolPart q.1 q.2 p hp i hi
    exact ⟨hplain.1, hplain.2.1⟩
  · obtain ⟨f, -, rfl⟩ := Option.map_eq_some_iff.mp
      (Option.mem_toList.mp hp)
    exact Option.some.inj hi ▸ ⟨rfl, rfl⟩

lemma interface?_protocolItems (name : String) (inherited : List String)
    (s : ProtocolState) (ts : List Token) :
    (protocolItems name inherited
      (readAll bodyStops readProtocolPart ProtocolPart.ofFailure s ts).1
        ).filterMap Item.interface? = [] := by
  rw [protocolItems, List.filterMap_cons_none rfl]
  exact List.filterMap_eq_nil_iff.mpr fun _ hi => (item?_protocolParts hi).1

/-- The items of a protocol hold the protocol itself and no other. -/
lemma filterMap_proto?_protocolItems (name : String)
    (inherited : List String) (s : ProtocolState) (ts : List Token) :
    (protocolItems name inherited
      (readAll bodyStops readProtocolPart ProtocolPart.ofFailure s ts).1
        ).filterMap Item.proto?
      = [Protocol.ofParts { name, inherited }
        (readAll bodyStops readProtocolPart ProtocolPart.ofFailure s
          ts).1] := by
  refine congrArg (List.cons _) ?_
  exact List.filterMap_eq_nil_iff.mpr fun _ hi => (item?_protocolParts hi).2

lemma interface?_readProtocol (s : Bool) (ts : List Token) :
    (readProtocol s ts).items.filterMap Item.interface? = [] := by
  rcases hres : (expectIdentifier .protocolName).result ts
    with ⟨f | name, rest⟩
  · rw [readProtocol_of_error hres]
    rfl
  rw [readProtocol_of_ok hres]
  split
  · exact (allPlain_map (fun _ => ⟨rfl, rfl, rfl⟩) _).filterMap_interface?
  rcases hnames : (protocolNames .inheritedClose).result rest
    with ⟨f | inherited, last⟩
  · rw [readProtocolNamed_of_error hnames]
    rfl
  · rw [readProtocolNamed_of_ok hnames]
    dsimp only
    rw [items_closeContainer]
    exact interface?_protocolItems name inherited _ last

/-- What begins with the keyword of neither a class nor a protocol holds
only plain items. -/
lemma allPlain_readItem {s : Bool} {t : Token} {ts : List Token}
    (hclass : t.kind ≠ .atInterface) (hproto : t.kind ≠ .atProtocol) :
    AllPlain (readItem s (t :: ts)).items := by
  rw [readItem]
  have hfunction : AllPlain (functionItems s (t :: ts)).items :=
    Yields.allPlain_reading (Yields.bind fun _ =>
      yields_pure (allPlain_map (fun _ => ⟨rfl, rfl, rfl⟩) _)) s _
  split
  · rename_i h
    exact absurd h hclass
  · rename_i h
    exact absurd h hproto
  · exact allPlain_map (fun _ => ⟨rfl, rfl, rfl⟩) _
  · exact allPlain_typedefItems s _
  · exact Yields.allPlain_reading (Yields.bind fun _ =>
      yields_pure (allPlain_singleton ⟨rfl, rfl, rfl⟩)) s ts
  · exact RecordReading.allPlain_reading _ yields_structItem s
  · exact hfunction
  · exact hfunction
  · exact hfunction
  · split
    · exact yields_enumMacroItem.allPlain_reading s _
    split
    · exact hfunction
    · exact .nil
  · split
    · exact hfunction
    · exact .nil
  · exact .nil

/-- What does not begin with the keyword of a class holds none. -/
lemma interface?_readItem {s : Bool} {t : Token} {ts : List Token}
    (hk : t.kind ≠ .atInterface) :
    (readItem s (t :: ts)).items.filterMap Item.interface? = [] := by
  by_cases hproto : t.kind = .atProtocol
  · have hread : readItem s (t :: ts) = readProtocol s ts := by
      rw [readItem, hproto]
    rw [hread]
    exact interface?_readProtocol s ts
  · exact (allPlain_readItem hk hproto).filterMap_interface?

/-! ### Headers without a remark -/

/-- Where nothing is remarked on, no declaration failed. -/
lemma failure?_eq_none_of_diagnostics {file : String} {ts : List Token}
    (h : (readTokens file ts).diagnostics = []) :
    ∀ p ∈ places [] readItem false (closeTokens ts),
      (readItem p.1 p.2).failure? = none := by
  intro p hp
  have hall : ((readAll [] readItem Item.ofFailure false
      (closeTokens ts)).1).filterMap Item.remark? = [] := h
  rw [readAll_fst, List.filterMap_eq_nil_iff] at hall
  cases hf : (readItem p.1 p.2).failure? with
  | none => rfl
  | some f =>
      have hmem : Item.ofFailure f
          ∈ (readItem p.1 p.2).found Item.ofFailure := by
        rw [Reading.found, hf]
        exact List.mem_append_right _ (List.mem_singleton.mpr rfl)
      exact nomatch hall _ (List.mem_flatMap.mpr ⟨p, hp, hmem⟩)

/-- The rows among some that begin with the keyword of a class. -/
def classRows (rows : List (List Token)) : List (List Token) :=
  rows.filter (headIs .atInterface)

lemma classRows_cons (row : List Token) (rows : List (List Token)) :
    classRows (row :: rows) = classRows [row] ++ classRows rows :=
  List.filter_append (p := headIs .atInterface) [row] rows

/-- One declaration, read without a failure, holds a class exactly if it
begins with the keyword. -/
lemma forall₂_interfaces_readItem (s : Bool) {ts : List Token}
    (hend : atEnd ts = false) (hf : (readItem s ts).failure? = none) :
    List.Forall₂ Interface.NamedBy
      (((readItem s ts).found Item.ofFailure).filterMap Item.interface?)
      (classRows [ts]) := by
  obtain ⟨t, rest, rfl, -⟩ := exists_cons_of_atEnd_eq_false hend
  rw [Reading.found, hf, Option.map_none, Option.toList_none,
    List.append_nil]
  by_cases hk : t.kind = .atInterface
  · have hread : readItem s (t :: rest) = readInterface s rest := by
      rw [readItem, hk]
    have hrows : classRows [t :: rest] = [t :: rest] := by
      simp [classRows, hk]
    rw [hread] at hf ⊢
    rw [hrows]
    exact forall₂_interfaces_readInterface hk hf
  · have hrows : classRows [t :: rest] = [] := by
      simp [classRows, hk]
    rw [interface?_readItem hk, hrows]
    exact .nil

/-- Without a remark there is one class for each declaration that begins
with the keyword, in order, and no other. -/
lemma forall₂_interfaces_readRows {file : String} {ts : List Token}
    (h : (readTokens file ts).diagnostics = []) :
    List.Forall₂ Interface.NamedBy (readTokens file ts).interfaces
      (classRows (readRows false (closeTokens ts))) := by
  have hfail := failure?_eq_none_of_diagnostics h
  have hend : ∀ p ∈ places [] readItem false (closeTokens ts),
      atEnd p.2 = false :=
    fun p hp => (allOrderly_readItem.reaches_place false _ hp).2.1
  show List.Forall₂ _ ((readAll [] readItem Item.ofFailure false
    (closeTokens ts)).1.filterMap Item.interface?) _
  rw [readAll_fst, readRows]
  generalize places [] readItem false (closeTokens ts) = ps at hfail hend
  induction ps with
  | nil => exact .nil
  | cons p ps ih =>
      rw [List.forall_mem_cons] at hfail hend
      rw [List.flatMap_cons, List.filterMap_append, List.map_cons,
        classRows_cons]
      exact List.rel_append
        (forall₂_interfaces_readItem p.1 hend.1 hfail.1)
        (ih hfail.2 hend.2)

/-! ### Keywords that are run over -/

/-- No declaration runs over the keyword of a class that stands behind its
own first token. -/
def NoneRunOver (spans : List (List Token)) : Prop :=
  ∀ span ∈ spans, ∀ t ∈ span.tail, t.kind ≠ .atInterface

/-- Tokens that are no keyword do not count. -/
lemma classRows_tails_append {span rest : List Token}
    (h : ∀ t ∈ span, t.kind ≠ .atInterface) :
    classRows (span ++ rest).tails = classRows rest.tails := by
  induction span with
  | nil => rfl
  | cons t span ih =>
      rw [List.forall_mem_cons] at h
      have hrow : classRows [t :: (span ++ rest)] = [] := by
        simp [classRows, h.1]
      rw [List.cons_append, List.tails_cons, classRows_cons, hrow,
        List.nil_append, ih h.2]

/-- There are as many rows as keywords. -/
lemma length_classRows_tails (ts : List Token) :
    (classRows ts.tails).length = ts.countP (·.kind = .atInterface) := by
  induction ts with
  | nil => rfl
  | cons t ts ih =>
      rw [List.tails_cons, classRows_cons, List.length_append, ih,
        List.countP_cons, Nat.add_comm]
      by_cases hk : t.kind = .atInterface <;> simp [classRows, hk]

lemma length_classRows_singleton (t : Token) (ts : List Token) :
    (classRows [t :: ts]).length
      = [t].countP (·.kind = .atInterface) := by
  by_cases hk : t.kind = .atInterface <;> simp [classRows, hk]

/-- Every keyword begins a declaration if none is run over. -/
lemma classRows_tails_of_noneRunOver {s : Bool} {ts : List Token}
    (h : EndsOnce ts) (hn : NoneRunOver (readSpans s ts)) :
    classRows ts.tails = classRows (readRows s ts) := by
  unfold readRows
  unfold readSpans at hn
  fun_induction places [] readItem s ts with
  | case1 s ts hstop =>
      obtain ⟨e, rfl, he⟩ := h.eq_singleton (atEnd_of_stop hstop)
      simp [classRows, he]
  | case2 s ts hgo ih =>
      have hend := not_stop_iff.mp hgo
      obtain ⟨t, rest, span, rfl, hspan, happ⟩ :=
        exists_spanAt_eq_cons s hend
      rw [List.map_cons, NoneRunOver, List.forall_mem_cons, hspan] at hn
      have hnext := ih ((reaches_next_item s hend).endsOnce h) hn.2
      have hrest : classRows rest.tails
          = classRows ((readItem s (t :: rest)).next (t :: rest)).tails := by
        conv_lhs => rw [← happ]
        exact classRows_tails_append hn.1
      rw [List.tails_cons, classRows_cons, hrest, hnext, List.map_cons]
      exact (classRows_cons _ _).symm

/-- There are at least as many keywords as declarations that begin with
one, and more if one is run over. -/
lemma noneRunOver_of_length_le {s : Bool} {ts : List Token}
    (h : EndsOnce ts) :
    (classRows (readRows s ts)).length ≤ (classRows ts.tails).length
      ∧ ((classRows ts.tails).length ≤ (classRows (readRows s ts)).length →
        NoneRunOver (readSpans s ts)) := by
  simp only [length_classRows_tails]
  unfold readRows readSpans
  fun_induction places [] readItem s ts with
  | case1 s ts hstop =>
      exact ⟨Nat.zero_le _, fun _ => List.forall_mem_nil _⟩
  | case2 s ts hgo ih =>
      have hend := not_stop_iff.mp hgo
      obtain ⟨t, rest, span, rfl, hspan, happ⟩ :=
        exists_spanAt_eq_cons s hend
      obtain ⟨hle, hnone⟩ := ih ((reaches_next_item s hend).endsOnce h)
      have hcount : (t :: rest).countP (·.kind = .atInterface)
          = [t].countP (·.kind = .atInterface)
            + (span.countP (·.kind = .atInterface)
              + ((readItem s (t :: rest)).next (t :: rest)).countP
                (·.kind = .atInterface)) := by
        rw [← List.countP_append, happ, ← List.countP_append]
        rfl
      rw [List.map_cons, classRows_cons, List.length_append,
        length_classRows_singleton, hcount]
      refine ⟨by omega, fun hge => ?_⟩
      have hzero : span.countP (·.kind = .atInterface) = 0 := by omega
      rw [List.map_cons, NoneRunOver, List.forall_mem_cons, hspan]
      refine ⟨fun u hu => ?_, hnone (by omega)⟩
      simpa using List.countP_eq_zero.mp hzero u hu

/-- A header without a remark has one class for each keyword, in order,
and the identifier behind the keyword names it. -/
def KeepsInterfaces (rules : MacroRules) (file text : String) : Prop :=
  (readHeader rules file text).diagnostics = [] →
    List.Forall₂ Interface.NamedBy (readHeader rules file text).interfaces
      (classRows (tokenize rules text).tails)

/-- The declarations of a header share out all its tokens before the end.
Without a remark, those that begin with the keyword of a class are its
classes; and no class is lost exactly if then no declaration runs over such
a keyword. -/
theorem keepsInterfaces_iff (rules : MacroRules) (file text : String) :
    (∃ e, (readSpans false (tokenize rules text)).flatten ++ [e]
        = tokenize rules text ∧ e.kind = .endOfInput)
      ∧ ((readHeader rules file text).diagnostics = [] →
        List.Forall₂ Interface.NamedBy
          (readHeader rules file text).interfaces
          (classRows (readRows false (tokenize rules text))))
      ∧ (KeepsInterfaces rules file text ↔
        ((readHeader rules file text).diagnostics = [] →
          NoneRunOver (readSpans false (tokenize rules text)))) := by
  have hends := endsOnce_tokenize rules text
  have hclasses : (readHeader rules file text).diagnostics = [] →
      List.Forall₂ Interface.NamedBy (readHeader rules file text).interfaces
        (classRows (readRows false (tokenize rules text))) := by
    intro h
    rw [← hends.closeTokens_eq]
    exact forall₂_interfaces_readRows h
  refine ⟨flatten_readSpans false hends, hclasses,
    forall_congr' fun h => ?_⟩
  replace hclasses := hclasses h
  constructor
  · intro hall
    refine (noneRunOver_of_length_le hends).2 (Nat.le_of_eq ?_)
    rw [← hall.length_eq, ← hclasses.length_eq]
  · intro hnone
    rw [classRows_tails_of_noneRunOver hends hnone]
    exact hclasses

/-- The statement behind a block type that lacks its semicolon runs over
the class behind it, and nothing is remarked on. -/
theorem keepsInterfaces_not_behind_open_alias :
    ¬ KeepsInterfaces {} ""
      "typedef void (^Done)(void)\n@interface Foo\n@end;\n" := by
  intro h
  have hclass := (h (by decide +kernel)).length_eq
  revert hclass
  decide +kernel

end HeaderBinding
