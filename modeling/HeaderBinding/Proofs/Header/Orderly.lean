/-
Everything that stands in a header is read in order.

* `Production.Yields`: what a production yields has a property;
  `Item.Plain`: an item that is no class, no protocol and no remark;
* type definitions and structures as items: `inOrder_typedefItems`,
  `orderly_structItems`;
* bodies: `allOrderly_readClassPart`, `allOrderly_readProtocolPart`;
* containers: `inOrder_readInterface`, `inOrder_readProtocol`;
* `allOrderly_readItem`: the declarations of a header, one by one.
-/
import HeaderBinding.Proofs.Cursor.Record

namespace HeaderBinding

open Production

/-! ### What productions yield -/

/-- Whatever the production yields has the property. -/
def Production.Yields {α : Type} (p : Production α) (P : α → Prop) : Prop :=
  ∀ ts a rest, p.result ts = (.ok a, rest) → P a

namespace Production

variable {α β : Type} {P : β → Prop}

lemma yields_pure {b : β} (h : P b) : (pure b : Production β).Yields P := by
  intro ts a rest hr
  rw [result_pure, Prod.mk.injEq, Except.ok.injEq] at hr
  exact hr.1 ▸ h

lemma Yields.bind {p : Production α} {k : α → Production β}
    (hk : ∀ a, (k a).Yields P) : (p >>= k).Yields P := by
  intro ts b rest hr
  obtain ⟨a, mid, -, hk'⟩ := exists_of_result_bind hr
  exact hk a mid b rest hk'

/-- What one production yields decides what the next one yields. -/
lemma Yields.then {Q : α → Prop} {p : Production α}
    {k : α → Production β} (hp : p.Yields Q)
    (hk : ∀ a, Q a → (k a).Yields P) : (p >>= k).Yields P := by
  intro ts b rest hr
  obtain ⟨a, mid, hp', hk'⟩ := exists_of_result_bind hr
  exact hk a (hp ts a mid hp') mid b rest hk'

lemma Yields.ite {c : Prop} [Decidable c] {p q : Production β}
    (hp : p.Yields P) (hq : q.Yields P) :
    (if c then p else q).Yields P := by
  split
  · exact hp
  · exact hq

end Production

/-- A declaration that is no class or category, no protocol and no
remark. -/
def Item.Plain (i : Item) : Prop :=
  i.interface? = none ∧ i.proto? = none ∧ i.remark? = none

/-- All the items are plain. -/
def AllPlain (items : List Item) : Prop :=
  ∀ i ∈ items, i.Plain

lemma AllPlain.nil : AllPlain [] :=
  fun _ h => nomatch h

lemma allPlain_singleton {i : Item} (h : i.Plain) : AllPlain [i] :=
  fun _ hj => List.mem_singleton.mp hj ▸ h

lemma allPlain_map {α : Type} {f : α → Item} (hf : ∀ a, (f a).Plain)
    (as : List α) : AllPlain (as.map f) := by
  intro i hi
  obtain ⟨a, -, rfl⟩ := List.mem_map.mp hi
  exact hf a

lemma AllPlain.append {items more : List Item} (h : AllPlain items)
    (h' : AllPlain more) : AllPlain (items ++ more) := by
  intro i hi
  rcases List.mem_append.mp hi with hi | hi
  · exact h i hi
  · exact h' i hi

lemma AllPlain.filterMap_remark? {items : List Item} (h : AllPlain items) :
    items.filterMap Item.remark? = [] :=
  List.filterMap_eq_nil_iff.mpr fun i hi => (h i hi).2.2

lemma AllPlain.filterMap_interface? {items : List Item}
    (h : AllPlain items) : items.filterMap Item.interface? = [] :=
  List.filterMap_eq_nil_iff.mpr fun i hi => (h i hi).1

lemma AllPlain.filterMap_proto? {items : List Item} (h : AllPlain items) :
    items.filterMap Item.proto? = [] :=
  List.filterMap_eq_nil_iff.mpr fun i hi => (h i hi).2.1

lemma yields_enumAlias : enumAlias.Yields AllPlain := by
  refine Yields.bind fun _ => Yields.bind fun _ => Yields.bind fun _ => ?_
  split
  · exact yields_pure (allPlain_singleton ⟨rfl, rfl, rfl⟩)
  · exact Yields.bind fun _ => yields_pure (allPlain_singleton ⟨rfl, rfl, rfl⟩)

lemma yields_enumMacroItem : enumMacroItem.Yields AllPlain :=
  Yields.bind fun _ => Yields.bind fun _ => Yields.bind fun _ =>
    yields_pure (allPlain_singleton ⟨rfl, rfl, rfl⟩)

lemma yields_structAlias (d : StructDef) :
    (structAlias d).Yields AllPlain :=
  Yields.bind fun _ => Yields.bind fun _ =>
    yields_pure (allPlain_singleton ⟨rfl, rfl, rfl⟩)

lemma yields_plainAlias : plainAlias.Yields AllPlain := by
  refine Yields.bind fun _ => Yields.bind fun _ => ?_
  split
  · exact Yields.ite (yields_pure (allPlain_singleton ⟨rfl, rfl, rfl⟩))
      (yields_pure AllPlain.nil)
  · exact yields_pure AllPlain.nil

/-- The items that a production reads. -/
lemma Production.Yields.forall_reading {σ α : Type} {P : α → Prop}
    {p : Production (List α)} (hy : p.Yields fun items => ∀ a ∈ items, P a)
    (s : σ) (ts : List Token) : ∀ a ∈ (p.reading s ts).items, P a := by
  rcases hres : p.result ts with ⟨f | items, rest⟩
  · rw [reading_of_error s hres]
    exact fun _ h => nomatch h
  · rw [reading_of_ok s hres]
    exact hy ts items rest hres

/-- Plain items that a production reads. -/
lemma Production.Yields.allPlain_reading {σ : Type}
    {p : Production (List Item)} (hy : p.Yields AllPlain) (s : σ)
    (ts : List Token) : AllPlain (p.reading s ts).items :=
  Yields.forall_reading hy s ts

/-- Plain items that a production reads without losing its place. -/
lemma Production.Yields.inOrder {σ : Type} {p : Production (List Item)}
    (hy : p.Yields AllPlain) (hp : p.Onward) (s : σ) (ts : List Token) :
    (p.reading s ts).InOrder Item.remark? ts :=
  hp.inOrder s ts fun items rest hr =>
    (hy ts items rest hr).filterMap_remark?

/-! ### Type definitions and structures as items -/

/-- The structures inside a structure, and what its own definition
makes of it. -/
lemma RecordReading.allPlain_reading {σ : Type} (r : RecordReading StructDef)
    {own : StructDef → Production (List Item)}
    (hy : ∀ d, (own d).Yields AllPlain) (s : σ) :
    AllPlain (r.reading own s).items := by
  have hinner : AllPlain (r.nested.map Item.structure_) :=
    allPlain_map (fun _ => ⟨rfl, rfl, rfl⟩) _
  rw [RecordReading.reading]
  split
  · exact hinner
  · exact hinner.append ((hy _).allPlain_reading s r.rest)

lemma RecordReading.Keeps.inOrder {σ : Type} {r : RecordReading StructDef}
    {ts : List Token} {own : StructDef → Production (List Item)}
    (h : r.Keeps ts) (hown : ∀ d, (own d).Onward)
    (hy : ∀ d, (own d).Yields AllPlain) (s : σ) :
    (r.reading own s).InOrder Item.remark? ts := by
  have hplain := (r.allPlain_reading hy s).filterMap_remark?
  rw [RecordReading.reading] at hplain ⊢
  split at hplain
  · rename_i f hf
    refine ⟨hplain ▸ .nil h.1, fun g hg => ?_⟩
    rw [← Option.some.inj hg]
    exact h.2 f hf
  · rename_i d hd
    have hq := (hy d).inOrder (hown d) s r.rest
    exact ⟨hplain ▸ .nil (h.1.trans hq.reaches), hq.found_eq⟩

/-- What a type definition declares is plain. -/
lemma allPlain_typedefItems {σ : Type} (s : σ) (ts : List Token) :
    AllPlain (typedefItems s ts).items := by
  rw [typedefItems]
  split
  · exact yields_enumMacroItem.allPlain_reading s _
  split
  · exact yields_enumAlias.allPlain_reading s _
  split
  · exact RecordReading.allPlain_reading _ yields_structAlias s
  split
  · exact Yields.allPlain_reading (Yields.bind fun _ =>
      yields_pure (allPlain_singleton ⟨rfl, rfl, rfl⟩)) s _
  · exact yields_plainAlias.allPlain_reading s _

/-- What a type definition declares is read in order behind its
keyword. -/
lemma inOrder_typedefItems {σ : Type} (s : σ) {t : Token}
    {ts : List Token} (hk : t.kind ≠ .endOfInput) :
    (typedefItems s (t :: ts)).InOrder Item.remark? ts := by
  rw [typedefItems, step_cons hk]
  split
  · exact yields_enumMacroItem.inOrder onward_enumMacroItem s ts
  split
  · exact yields_enumAlias.inOrder onward_enumAlias s ts
  split
  · rename_i hstruct
    rw [Bool.and_eq_true] at hstruct
    obtain ⟨u, us, rfl, hu⟩ := exists_cons_of_headIs hstruct.1
    exact (keeps_readStruct (atEnd_cons_eq_false.mpr (by simp [hu]))).1.inOrder
      onward_structAlias yields_structAlias s
  split
  · exact Yields.inOrder (Yields.bind fun _ =>
        yields_pure (allPlain_singleton ⟨rfl, rfl, rfl⟩))
      ((onward_callableAlias _).bind fun _ => onward_pure _) s ts
  · exact yields_plainAlias.inOrder onward_plainAlias s ts

/-- A structure is read before what its own definition makes of it. -/
lemma RecordReading.reaches_reading {σ : Type} {r : RecordReading StructDef}
    {own : StructDef → Production (List Item)}
    (hown : ∀ d, (own d).Onward) (s : σ) :
    Reaches r.rest (r.reading own s).rest := by
  rw [RecordReading.reading]
  split
  · exact .refl _
  · rename_i d hd
    show Reaches r.rest (Production.reading (own d) s r.rest).rest
    rcases hres : (own d).result r.rest with ⟨f | items, rest⟩
    · rw [reading_of_error s hres]
      exact (hown d).reaches hres
    · rw [reading_of_ok s hres]
      exact (hown d).reaches hres

/-- What a structure outside a type definition makes of itself. -/
lemma yields_structItem (d : StructDef) :
    Yields (do
      let _ ← accept .semicolon
      return if d.name ≠ "" ∨ d.fields ≠ [] then [Item.structure_ d]
        else []) AllPlain := by
  refine Yields.bind fun _ => yields_pure ?_
  split
  · exact allPlain_singleton ⟨rfl, rfl, rfl⟩
  · exact AllPlain.nil

lemma orderly_structItems {σ : Type} (s : σ) {ts : List Token}
    (hend : atEnd ts = false) :
    (structItems s ts).Orderly Item.remark? ts := by
  obtain ⟨hkeeps, hlt⟩ := keeps_readStruct hend
  have hown : ∀ d : StructDef, Onward (do
      let _ ← accept .semicolon
      return if d.name ≠ "" ∨ d.fields ≠ [] then [Item.structure_ d]
        else []) :=
    fun d => (onward_accept (by decide)).bind fun _ => onward_pure _
  exact ⟨hkeeps.inOrder hown yields_structItem s, fun _ =>
    Nat.lt_of_le_of_lt
      (RecordReading.reaches_reading hown s).length_le hlt⟩

/-! ### Bodies -/

/-- What is passed over without a remark is orderly. -/
lemma orderly_passed {σ α : Type} {remark? : α → Option Diagnostic}
    {items : List α} {t : Token} {ts rest : List Token} (s : σ)
    (hitems : items.filterMap remark? = []) (hk : t.kind ≠ .endOfInput)
    (h : Reaches ts rest) :
    (⟨items, s, rest, none⟩ : Reading σ α).Orderly remark? (t :: ts) :=
  Reading.InOrder.orderly_cons
    ⟨by rw [hitems]; exact .nil h, fun f hf => by simp at hf⟩ hk

/-- One part that is no remark, which a production keeps to. -/
lemma inOrder_onePart {σ α β : Type} {remark? : β → Option Diagnostic}
    {p : Production α} {f : α → β} (hp : p.Onward)
    (hf : ∀ a, remark? (f a) = none) (s : σ) (ts : List Token) :
    (Production.reading (do return [f (← p)]) s ts).InOrder remark? ts := by
  have hy : Yields (do return [f (← p)])
      fun items => items.filterMap remark? = [] :=
    Yields.bind fun a => yields_pure (List.filterMap_cons_none (hf a))
  exact (hp.bind fun _ => onward_pure _).inOrder s ts (hy ts)

/-- The parts of the body of a class are read in order. -/
lemma allOrderly_readClassPart :
    AllOrderly bodyStops readClassPart ClassPart.remark? := by
  intro s ts hend _
  obtain ⟨t, rest, rfl, hk⟩ := exists_cons_of_atEnd_eq_false hend
  rw [readClassPart]
  split
  · exact (inOrder_onePart (onward_propertyBody s) (fun _ => rfl) s
      rest).orderly_cons hk
  · exact (inOrder_onePart (onward_methodBody s) (fun _ => rfl) s
      rest).orderly_cons hk
  · exact (inOrder_onePart (onward_methodBody s) (fun _ => rfl) s
      rest).orderly_cons hk
  · exact orderly_passed s rfl hk (reaches_skipGroup _ _ 1 rest)
  · refine orderly_passed s ?_ hk (.refl rest)
    split <;> rfl
  · exact orderly_passed _ rfl hk (.refl rest)

/-- The remark that a part of a protocol is. -/
def ProtocolPart.remark? (p : ProtocolPart) : Option Diagnostic :=
  p.item?.bind Item.remark?

/-- What a type definition leaves keeps its order as parts of a
protocol. -/
lemma Reading.InOrder.map_item {σ : Type} {r : Reading σ Item}
    {ts : List Token} (h : r.InOrder Item.remark? ts) :
    (⟨r.items.map .item, r.state, r.rest, r.failure?⟩ :
      Reading σ ProtocolPart).InOrder ProtocolPart.remark? ts := by
  refine ⟨?_, h.found_eq⟩
  rw [List.filterMap_map]
  exact h.remarked

/-- A part that a production reads and that is no remark. -/
lemma inOrder_partReading {p : Production ProtocolPart} (hp : p.Onward)
    (hy : p.Yields (·.remark? = none)) (s : ProtocolState)
    (ts : List Token) :
    (partReading p s ts).InOrder ProtocolPart.remark? ts :=
  have hy' : Yields (do return [← p])
      fun parts => parts.filterMap ProtocolPart.remark? = [] :=
    hy.then fun _ h => yields_pure (List.filterMap_cons_none h)
  (hp.bind fun _ => onward_pure _).inOrder s ts (hy' ts)

/-- The parts of the body of a protocol are read in order. -/
lemma allOrderly_readProtocolPart :
    AllOrderly bodyStops readProtocolPart ProtocolPart.remark? := by
  intro s ts hend _
  obtain ⟨t, rest, rfl, hk⟩ := exists_cons_of_atEnd_eq_false hend
  rw [readProtocolPart]
  split
  · exact orderly_passed _ rfl hk (.refl rest)
  · exact orderly_passed _ rfl hk (.refl rest)
  · exact (inOrder_partReading
      ((onward_propertyBody _).bind fun _ => onward_pure _)
      (Yields.bind fun _ => yields_pure rfl) s rest).orderly_cons hk
  · exact (inOrder_partReading
      ((onward_methodBody _).bind fun _ => onward_pure _)
      (Yields.bind fun _ => yields_pure rfl) s rest).orderly_cons hk
  · exact (inOrder_partReading
      ((onward_methodBody _).bind fun _ => onward_pure _)
      (Yields.bind fun _ => yields_pure rfl) s rest).orderly_cons hk
  · exact (inOrder_typedefItems s hk).map_item.orderly_cons hk
  · exact orderly_passed _ rfl hk (.refl rest)

/-! ### Classes and protocols -/

section Containers

variable {ts rest : List Token} {f : Failure}

lemma closeContainer_of_ok {σ : Type} {items : List Item} {s : σ}
    {t : Token}
    (h : (expect .atEnd .containerEnd).result ts = (.ok t, rest)) :
    closeContainer items s ts = ⟨items, s, rest, none⟩ := by
  have hrun : (expect .atEnd .containerEnd).run ts = (.ok t, rest) := h
  rw [closeContainer, hrun]

lemma closeContainer_of_error {σ : Type} {items : List Item} {s : σ}
    (h : (expect .atEnd .containerEnd).result ts = (.error f, rest)) :
    closeContainer items s ts = ⟨items, s, rest, some f⟩ := by
  have hrun : (expect .atEnd .containerEnd).run ts = (.error f, rest) := h
  rw [closeContainer, hrun]

/-- The class or category with the head, and what is remarked in its
body. -/
def classItems (head : Interface) (parts : List ClassPart) : List Item :=
  .interface (head.ofParts parts)
    :: (parts.filterMap ClassPart.remark?).map .remark

lemma readInterface_of_error {s : Bool}
    (h : interfaceHead.result ts = (.error f, rest)) :
    readInterface s ts = ⟨[], s, rest, some f⟩ := by
  have hrun : interfaceHead.run ts = (.error f, rest) := h
  rw [readInterface, hrun]

lemma readInterface_of_ok {s : Bool} {head : Interface}
    (h : interfaceHead.result ts = (.ok head, rest)) :
    readInterface s ts =
      let body := readAll bodyStops readClassPart ClassPart.ofFailure s rest
      closeContainer (classItems head body.1) body.2.1 body.2.2 := by
  have hrun : interfaceHead.run ts = (.ok head, rest) := h
  rw [readInterface, hrun]
  rfl

/-- The protocol with the name, and what is declared in its body. -/
def protocolItems (name : String) (inherited : List String)
    (parts : List ProtocolPart) : List Item :=
  .proto (Protocol.ofParts { name, inherited } parts)
    :: parts.filterMap ProtocolPart.item?

lemma readProtocolNamed_of_error {name : String} {s : Bool}
    (h : (protocolNames .inheritedClose).result ts = (.error f, rest)) :
    readProtocolNamed name s ts = ⟨[], s, rest, some f⟩ := by
  have hrun : (protocolNames .inheritedClose).run ts = (.error f, rest) := h
  rw [readProtocolNamed, hrun]

lemma readProtocolNamed_of_ok {name : String} {s : Bool}
    {inherited : List String}
    (h : (protocolNames .inheritedClose).result ts
      = (.ok inherited, rest)) :
    readProtocolNamed name s ts =
      let body := readAll bodyStops readProtocolPart ProtocolPart.ofFailure
        { inScope := s } rest
      closeContainer (protocolItems name inherited body.1)
        body.2.1.inScope body.2.2 := by
  have hrun : (protocolNames .inheritedClose).run ts
      = (.ok inherited, rest) := h
  rw [readProtocolNamed, hrun]
  rfl

lemma readProtocol_of_error {s : Bool}
    (h : (expectIdentifier .protocolName).result ts = (.error f, rest)) :
    readProtocol s ts = ⟨[], s, rest, some f⟩ := by
  have hrun : (expectIdentifier .protocolName).run ts = (.error f, rest) := h
  rw [readProtocol, hrun]

lemma readProtocol_of_ok {s : Bool} {name : String}
    (h : (expectIdentifier .protocolName).result ts = (.ok name, rest)) :
    readProtocol s ts =
      if headIn [.comma, .semicolon] rest then forwardProtocols name s rest
      else readProtocolNamed name s rest := by
  have hrun : (expectIdentifier .protocolName).run ts = (.ok name, rest) := h
  rw [readProtocol, hrun]

end Containers

/-- A failure at the place where reading stopped is in order. -/
lemma inOrder_failed {σ α : Type} {remark? : α → Option Diagnostic}
    {items : List α} {f : Failure} {ts rest : List Token} (s : σ)
    (h : Remarked ts rest (items.filterMap remark?))
    (hf : f.found = nextToken rest) :
    (⟨items, s, rest, some f⟩ : Reading σ α).InOrder remark? ts :=
  ⟨h, fun _ hg => Option.some.inj hg ▸ hf⟩

/-- The end of a container stands behind what was read of it. -/
lemma inOrder_closeContainer {σ : Type} {items : List Item}
    {ts rest : List Token} (s : σ)
    (h : Remarked ts rest (items.filterMap Item.remark?)) :
    (closeContainer items s rest).InOrder Item.remark? ts := by
  have hend := onward_expect .atEnd .containerEnd
  rcases hres : (expect .atEnd .containerEnd).result rest
    with ⟨f | u, last⟩
  · rw [closeContainer_of_error hres]
    exact inOrder_failed s (h.then_reaches (hend.reaches hres))
      (hend.found_eq hres)
  · rw [closeContainer_of_ok hres]
    exact ⟨h.then_reaches (hend.reaches hres), fun f hf => nomatch hf⟩

lemma inOrder_readInterface (s : Bool) (ts : List Token) :
    (readInterface s ts).InOrder Item.remark? ts := by
  rcases hres : interfaceHead.result ts with ⟨f | head, rest⟩
  · rw [readInterface_of_error hres]
    exact inOrder_failed s (.nil (onward_interfaceHead.reaches hres))
      (onward_interfaceHead.found_eq hres)
  · rw [readInterface_of_ok hres]
    have hbody : Remarked rest
        (readAll bodyStops readClassPart ClassPart.ofFailure s rest).2.2 _ :=
      allOrderly_readClassPart.remarked (fun _ => rfl) s rest
    refine inOrder_closeContainer _ ?_
    rw [classItems, List.filterMap_cons_none rfl, List.filterMap_map]
    simp only [Function.comp_def, Item.remark?, List.filterMap_some]
    exact hbody.of_reaches (onward_interfaceHead.reaches hres)

lemma inOrder_readProtocolNamed (name : String) (s : Bool)
    (ts : List Token) :
    (readProtocolNamed name s ts).InOrder Item.remark? ts := by
  have hhead := onward_protocolNames .inheritedClose
  rcases hres : (protocolNames .inheritedClose).result ts
    with ⟨f | inherited, rest⟩
  · rw [readProtocolNamed_of_error hres]
    exact inOrder_failed s (.nil (hhead.reaches hres)) (hhead.found_eq hres)
  · rw [readProtocolNamed_of_ok hres]
    have hbody : Remarked rest (readAll bodyStops readProtocolPart
        ProtocolPart.ofFailure { inScope := s } rest).2.2 _ :=
      allOrderly_readProtocolPart.remarked (fun _ => rfl) { inScope := s } rest
    refine inOrder_closeContainer _ ?_
    rw [protocolItems, List.filterMap_cons_none rfl,
      List.filterMap_filterMap]
    exact hbody.of_reaches (hhead.reaches hres)

lemma inOrder_forwardProtocols (name : String) (s : Bool)
    (ts : List Token) :
    (forwardProtocols name s ts).InOrder Item.remark? ts := by
  have hnames := reaches_announcedNames false ts
  refine ⟨?_, fun f hf => nomatch hf⟩
  rw [forwardProtocols,
    (allPlain_map (fun _ => ⟨rfl, rfl, rfl⟩) _).filterMap_remark?]
  refine .nil (hnames.trans ?_)
  dsimp only
  split
  · rename_i h
    exact reaches_tail_of_headIs (by decide) h
  · exact .refl _

lemma inOrder_readProtocol (s : Bool) (ts : List Token) :
    (readProtocol s ts).InOrder Item.remark? ts := by
  have hname := onward_expectIdentifier .protocolName
  rcases hres : (expectIdentifier .protocolName).result ts
    with ⟨f | name, rest⟩
  · rw [readProtocol_of_error hres]
    exact inOrder_failed s (.nil (hname.reaches hres)) (hname.found_eq hres)
  · rw [readProtocol_of_ok hres]
    have hreach := hname.reaches hres
    split
    · exact (inOrder_forwardProtocols name s rest).of_reaches hreach
    · exact (inOrder_readProtocolNamed name s rest).of_reaches hreach

/-! ### A whole header -/

/-- A word that starts a function, or a keyword before one, is read with
the function. -/
lemma orderly_functionItems (s : Bool) {ts : List Token}
    (h : headIn functionStarts ts = true) :
    (functionItems s ts).Orderly Item.remark? ts := by
  refine Onward.orderly (onward_functionBody.bind fun _ => onward_pure _) s
    ts (fun items rest hr => ?_) fun items rest hr => ?_
  all_goals
    obtain ⟨fs, mid, hf, hr⟩ := exists_of_result_bind hr
    rw [result_pure, Prod.mk.injEq, Except.ok.injEq] at hr
  · rw [← hr.1]
    exact (allPlain_map (fun _ => ⟨rfl, rfl, rfl⟩) fs).filterMap_remark?
  · rw [← hr.2]
    exact length_functionBody_lt h hf

/-- A macro that declares an enumeration is read with it. -/
lemma orderly_enumMacroItem (s : Bool) {ts : List Token}
    (hend : atEnd ts = false) :
    (enumMacroItem.reading s ts).Orderly Item.remark? ts := by
  refine onward_enumMacroItem.orderly s ts (fun items rest hr =>
      (yields_enumMacroItem ts items rest hr).filterMap_remark?)
    fun items rest hr => ?_
  rw [enumMacroItem, result_bind_of_ok (result_advance ts)] at hr
  refine Nat.lt_of_le_of_lt (Onward.reaches ?_ hr).length_le
    (length_step_lt hend)
  exact (onward_enumMacroBody _).bind fun _ =>
    (onward_accept (by decide)).bind fun _ => onward_pure _

/-- The declarations of a header are read in order. -/
theorem allOrderly_readItem :
    AllOrderly [] readItem Item.remark? := by
  intro s ts hend _
  obtain ⟨t, rest, rfl, hk⟩ := exists_cons_of_atEnd_eq_false hend
  have hstarts : t.kind ∈ functionStarts →
      headIn functionStarts (t :: rest) = true := by
    intro hmem
    simpa using hmem
  rw [readItem]
  split
  · exact (inOrder_readInterface s rest).orderly_cons hk
  · exact (inOrder_readProtocol s rest).orderly_cons hk
  · exact orderly_passed s
      (allPlain_map (fun _ => ⟨rfl, rfl, rfl⟩) _).filterMap_remark? hk
      (reaches_forwardClasses 0 rest)
  · exact (inOrder_typedefItems s hk).orderly_cons hk
  · exact (inOrder_onePart onward_enumBody (fun _ => rfl) s
      rest).orderly_cons hk
  · exact orderly_structItems s hend
  · rename_i h
    exact orderly_functionItems s (hstarts (by rw [h]; decide))
  · rename_i h
    exact orderly_functionItems s (hstarts (by rw [h]; decide))
  · rename_i h
    exact orderly_functionItems s (hstarts (by rw [h]; decide))
  · rename_i h
    split
    · exact orderly_enumMacroItem s hend
    split
    · exact orderly_functionItems s (hstarts (by rw [h]; decide))
    · exact orderly_passed s rfl hk (.refl rest)
  · rename_i h
    split
    · exact orderly_functionItems s (hstarts (by rw [h]; decide))
    · exact orderly_passed s rfl hk (.refl rest)
  · exact orderly_passed _ rfl hk (.refl rest)

end HeaderBinding
