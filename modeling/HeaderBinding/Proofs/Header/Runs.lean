/-
The runs of tokens that a header is made of.

* `itemRuns`: the runs of one declaration; those of a class or a protocol
  with a body are its head, the parts of its body, and its end;
* `ItemRead`: a class with its body, a protocol with its body, or neither,
  with its runs; `itemRead`: everything is read as one of the three;
* `state_readItem`, `state_readClassPart`, `state_readProtocolPart`: the
  scope and the section behind an item are left to its first token;
* `flatten_headerRuns`: the runs of a text are all its tokens before the
  end.
-/
import HeaderBinding.Proofs.Cursor.Runs
import HeaderBinding.Proofs.Header.Spans

namespace HeaderBinding

open Production

/-! ### The runs of a declaration -/

/-- The head of a class, and the row that its body begins with. -/
def classBody? (ts : List Token) : Option (Interface × List Token) :=
  match interfaceHead.result ts with
  | (.ok head, start) => some (head, start)
  | (.error _, _) => none

/-- The name of a protocol and those it takes over, and the row that its
body begins with; an announcement has none. -/
def protocolBody? (ts : List Token) :
    Option (String × List String × List Token) :=
  match (expectIdentifier .protocolName).result ts with
  | (.ok name, rest) =>
    if headIn [.comma, .semicolon] rest then none
    else
      match (protocolNames .inheritedClose).result rest with
      | (.ok inherited, start) => some (name, inherited, start)
      | (.error _, _) => none
  | (.error _, _) => none

/-- The runs of the parts of a body. -/
def bodyRuns {σ α : Type} (one : σ → List Token → Reading σ α) :
    σ → List Token → List (List Token) :=
  runsOf bodyStops one fun s ts => [ownRun one s ts]

/-- The runs of a container in front of a row: its head, the parts of its
body, and its end. -/
def containerRuns {σ α : Type} (one : σ → List Token → Reading σ α)
    (report : Failure → α) (s : σ) (ts start next : List Token) :
    List (List Token) :=
  upTo ts start :: (bodyRuns one s start
    ++ [upTo (readAll bodyStops one report s start).2.2 next])

/-- The runs of one declaration.  One that is no container with a body is
a single run. -/
def itemRuns (s : Bool) (ts : List Token) : List (List Token) :=
  if headIs .atInterface ts then
    match classBody? ts.tail with
    | some (_, start) =>
      containerRuns readClassPart ClassPart.ofFailure s ts start
        ((readItem s ts).next ts)
    | none => [ownRun readItem s ts]
  else if headIs .atProtocol ts then
    match protocolBody? ts.tail with
    | some (_, _, start) =>
      containerRuns readProtocolPart ProtocolPart.ofFailure
        { inScope := s } ts start ((readItem s ts).next ts)
    | none => [ownRun readItem s ts]
  else [ownRun readItem s ts]

/-- The runs of a whole row of tokens. -/
def headerRuns (ts : List Token) : List (List Token) :=
  runsOf [] readItem itemRuns false ts

section Containers

variable {s : Bool} {t : Token} {ts start : List Token}

lemma readInterface_of_body {head : Interface}
    (h : classBody? ts = some (head, start)) :
    Reaches ts start ∧ readInterface s ts =
      let body := readAll bodyStops readClassPart ClassPart.ofFailure s
        start
      closeContainer (classItems head body.1) body.2.1 body.2.2 := by
  rw [classBody?] at h
  rcases hres : interfaceHead.result ts with ⟨f | head', start'⟩
  · simp [hres] at h
  · simp only [hres, Option.some.injEq, Prod.mk.injEq] at h
    obtain ⟨rfl, rfl⟩ := h
    exact ⟨onward_interfaceHead.reaches hres, readInterface_of_ok hres⟩

lemma readInterface_of_no_body (h : classBody? ts = none) :
    (readInterface s ts).items = [] ∧ (readInterface s ts).state = s := by
  rw [classBody?] at h
  rcases hres : interfaceHead.result ts with ⟨f | head, start⟩
  · rw [readInterface_of_error hres]
    exact ⟨rfl, rfl⟩
  · simp [hres] at h

lemma readProtocol_of_body {name : String} {inherited : List String}
    (h : protocolBody? ts = some (name, inherited, start)) :
    (∃ u us, ts = u :: us ∧ u.kind = .identifier ∧ u.value = name
        ∧ Reaches us start)
      ∧ readProtocol s ts =
        let body := readAll bodyStops readProtocolPart
          ProtocolPart.ofFailure { inScope := s } start
        closeContainer (protocolItems name inherited body.1)
          body.2.1.inScope body.2.2 := by
  rw [protocolBody?] at h
  rcases hname : (expectIdentifier .protocolName).result ts
    with ⟨f | name', rest⟩
  · simp [hname] at h
  simp only [hname] at h
  obtain ⟨u, rfl, hk, rfl⟩ := exists_cons_of_result_expectIdentifier hname
  split at h
  · cases h
  rename_i hforward
  rcases hnames : (protocolNames .inheritedClose).result rest
    with ⟨f | inherited', start'⟩
  · simp [hnames] at h
  · simp only [hnames, Option.some.injEq, Prod.mk.injEq] at h
    obtain ⟨rfl, rfl, rfl⟩ := h
    refine ⟨⟨u, rest, rfl, hk, rfl,
      (onward_protocolNames .inheritedClose).reaches hnames⟩, ?_⟩
    rw [readProtocol_of_ok hname, if_neg hforward,
      readProtocolNamed_of_ok hnames]

lemma readProtocol_of_no_body (h : protocolBody? ts = none) :
    (readProtocol s ts).items.filterMap Item.proto? = []
      ∧ (readProtocol s ts).state = s := by
  rw [protocolBody?] at h
  rcases hname : (expectIdentifier .protocolName).result ts
    with ⟨f | name, rest⟩
  · rw [readProtocol_of_error hname]
    exact ⟨rfl, rfl⟩
  simp only [hname] at h
  rw [readProtocol_of_ok hname]
  split at h
  · rename_i hforward
    rw [if_pos hforward]
    exact ⟨(allPlain_map (fun _ => ⟨rfl, rfl, rfl⟩) _).filterMap_proto?,
      rfl⟩
  · rename_i hforward
    rw [if_neg hforward]
    rcases hnames : (protocolNames .inheritedClose).result rest
      with ⟨f | inherited, start⟩
    · rw [readProtocolNamed_of_error hnames]
      exact ⟨rfl, rfl⟩
    · simp [hnames] at h

end Containers

/-! ### States -/

/-- The scope behind a token that stands where an item begins. -/
lemma scopeMarker?_getD (kind : TokenKind) (s : Bool) :
    (scopeMarker? kind).getD s
      = switched .nonnullBegin .nonnullEnd s kind := by
  cases kind <;> rfl

lemma state_reading {σ α : Type} (p : Production (List α)) (s : σ)
    (ts : List Token) : (p.reading s ts).state = s := by
  rcases hres : p.result ts with ⟨f | items, rest⟩
  · rw [reading_of_error s hres]
  · rw [reading_of_ok s hres]

lemma RecordReading.state_reading {σ : Type} (r : RecordReading StructDef)
    (own : StructDef → Production (List Item)) (s : σ) :
    (r.reading own s).state = s := by
  rw [RecordReading.reading]
  split
  · rfl
  · exact HeaderBinding.state_reading _ s _

lemma state_typedefItems {σ : Type} (s : σ) (ts : List Token) :
    (typedefItems s ts).state = s := by
  rw [typedefItems]
  split
  · exact state_reading _ s _
  split
  · exact state_reading _ s _
  split
  · exact RecordReading.state_reading _ _ s
  split
  · exact state_reading _ s _
  · exact state_reading _ s _

/-- What is neither a class nor a protocol leaves the scope to the token it
begins with. -/
lemma state_readItem {s : Bool} {t : Token} {ts : List Token}
    (hclass : t.kind ≠ .atInterface) (hproto : t.kind ≠ .atProtocol) :
    (readItem s (t :: ts)).state
      = switched .nonnullBegin .nonnullEnd s t.kind := by
  rw [readItem]
  split
  · rename_i h
    exact absurd h hclass
  · rename_i h
    exact absurd h hproto
  · rename_i h
    rw [h]
    rfl
  · rename_i h
    rw [h, state_typedefItems]
    rfl
  · rename_i h
    rw [h, state_reading]
    rfl
  · rename_i h
    rw [h, structItems, RecordReading.state_reading]
    rfl
  · rename_i h
    rw [h, functionItems, state_reading]
    rfl
  · rename_i h
    rw [h, functionItems, state_reading]
    rfl
  · rename_i h
    rw [h, functionItems, state_reading]
    rfl
  · rename_i h
    rw [h, functionItems]
    split
    · exact state_reading _ s _
    split
    · exact state_reading _ s _
    · rfl
  · rename_i h
    rw [h, functionItems]
    split
    · exact state_reading _ s _
    · rfl
  · exact scopeMarker?_getD t.kind s

/-- A part of a class leaves it to that token, too. -/
lemma state_readClassPart (s : Bool) (t : Token) (ts : List Token) :
    (readClassPart s (t :: ts)).state
      = switched .nonnullBegin .nonnullEnd s t.kind := by
  rw [readClassPart]
  split
  · rename_i h
    rw [h, state_reading]
    rfl
  · rename_i h
    rw [h, state_reading]
    rfl
  · rename_i h
    rw [h, state_reading]
    rfl
  · rename_i h
    rw [h]
    rfl
  · rename_i h
    rw [h]
    rfl
  · exact scopeMarker?_getD t.kind s

/-- So does a part of a protocol, which leaves it also the section. -/
lemma state_readProtocolPart (s : ProtocolState) (t : Token)
    (ts : List Token) :
    (readProtocolPart s (t :: ts)).state
      = ⟨switched .nonnullBegin .nonnullEnd s.inScope t.kind,
        switched .atOptional .atRequired s.optional t.kind⟩ := by
  rw [readProtocolPart]
  split
  · rename_i h
    rw [h]
    rfl
  · rename_i h
    rw [h]
    rfl
  · rename_i h
    rw [h, partReading, state_reading]
    rfl
  · rename_i h
    rw [h, partReading, state_reading]
    rfl
  · rename_i h
    rw [h, partReading, state_reading]
    rfl
  · rename_i h
    rw [h]
    exact state_typedefItems s _
  · rename_i hoptional hrequired _ _ _ _
    rw [scopeMarker?_getD]
    simp only [switched, if_neg hoptional, if_neg hrequired]

/-! ### What one declaration is read as -/

/-- What is read at a place of a header: a class with its body, a protocol
with its body, or neither. -/
inductive ItemRead (s : Bool) (t : Token) (ts : List Token) : Prop
  | interface {head : Interface} {start : List Token}
      (hk : t.kind = .atInterface) (hstart : Reaches ts start)
      (hread : readItem s (t :: ts) =
        let body := readAll bodyStops readClassPart ClassPart.ofFailure s
          start
        closeContainer (classItems head body.1) body.2.1 body.2.2)
      (hruns : itemRuns s (t :: ts) =
        containerRuns readClassPart ClassPart.ofFailure s (t :: ts) start
          ((readItem s (t :: ts)).next (t :: ts)))
  | proto {name : Token} {us start : List Token} {inherited : List String}
      (hk : t.kind = .atProtocol) (hts : ts = name :: us)
      (hname : name.kind = .identifier) (hstart : Reaches us start)
      (hread : readItem s (t :: ts) =
        let body := readAll bodyStops readProtocolPart
          ProtocolPart.ofFailure { inScope := s } start
        closeContainer (protocolItems name.value inherited body.1)
          body.2.1.inScope body.2.2)
      (hruns : itemRuns s (t :: ts) =
        containerRuns readProtocolPart ProtocolPart.ofFailure
          { inScope := s } (t :: ts) start
          ((readItem s (t :: ts)).next (t :: ts)))
  | plain
      (hclass : (readItem s (t :: ts)).items.filterMap Item.interface? = [])
      (hproto : (readItem s (t :: ts)).items.filterMap Item.proto? = [])
      (hstate : (readItem s (t :: ts)).state
        = switched .nonnullBegin .nonnullEnd s t.kind)
      (hruns : itemRuns s (t :: ts) = [ownRun readItem s (t :: ts)])

lemma itemRead (s : Bool) (t : Token) (ts : List Token) :
    ItemRead s t ts := by
  by_cases hclass : t.kind = .atInterface
  · have hread : readItem s (t :: ts) = readInterface s ts := by
      rw [readItem, hclass]
    cases hbody : classBody? ts with
    | some body =>
        obtain ⟨hstart, hbodyRead⟩ := readInterface_of_body (s := s) hbody
        exact .interface hclass hstart (hread.trans hbodyRead)
          (by simp [itemRuns, hclass, hbody])
    | none =>
        obtain ⟨hitems, hstate⟩ := readInterface_of_no_body (s := s) hbody
        exact .plain (by rw [hread, hitems]; rfl)
          (by rw [hread, hitems]; rfl) (by rw [hread, hstate, hclass]; rfl)
          (by simp [itemRuns, hclass, hbody])
  by_cases hproto : t.kind = .atProtocol
  · have hread : readItem s (t :: ts) = readProtocol s ts := by
      rw [readItem, hproto]
    cases hbody : protocolBody? ts with
    | some body =>
        obtain ⟨name, inherited, start⟩ := body
        obtain ⟨⟨u, us, rfl, hname, rfl, hstart⟩, hbodyRead⟩ :=
          readProtocol_of_body (s := s) hbody
        exact .proto hproto rfl hname hstart (hread.trans hbodyRead)
          (by simp [itemRuns, hproto, hbody])
    | none =>
        obtain ⟨hitems, hstate⟩ := readProtocol_of_no_body (s := s) hbody
        exact .plain (interface?_readItem hclass) (by rw [hread, hitems])
          (by rw [hread, hstate, hproto]; rfl)
          (by simp [itemRuns, hproto, hbody])
  · have hplain : AllPlain (readItem s (t :: ts)).items :=
      allPlain_readItem hclass hproto
    exact .plain hplain.filterMap_interface? hplain.filterMap_proto?
      (state_readItem hclass hproto)
      (by simp [itemRuns, hclass, hproto])

/-! ### The runs are all tokens -/

lemma state_closeContainer {σ : Type} (items : List Item) (s : σ)
    (ts : List Token) : (closeContainer items s ts).state = s := by
  rcases hres : (expect .atEnd .containerEnd).result ts with ⟨f | u, last⟩
  · rw [closeContainer_of_error hres]
  · rw [closeContainer_of_ok hres]

lemma reaches_closeContainer {σ : Type} (items : List Item) (s : σ)
    (ts : List Token) : Reaches ts (closeContainer items s ts).rest := by
  have hend := onward_expect .atEnd .containerEnd
  rcases hres : (expect .atEnd .containerEnd).result ts with ⟨f | u, last⟩
  · rw [closeContainer_of_error hres]
    exact hend.reaches hres
  · rw [closeContainer_of_ok hres]
    exact hend.reaches hres

/-- The next declaration is read behind the end of a body. -/
lemma reaches_next_of_closeContainer {s s' : Bool} {t : Token}
    {ts left : List Token} {items : List Item} (hk : t.kind ≠ .endOfInput)
    (h : readItem s (t :: ts) = closeContainer items s' left) :
    Reaches left ((readItem s (t :: ts)).next (t :: ts)) := by
  have hend : atEnd (t :: ts) = false := atEnd_cons_eq_false.mpr hk
  have hnext := (allOrderly_readItem s _ hend
    (not_headIn_nil _)).reaches_next hend
  refine Reaches.trans ?_ hnext
  rw [h]
  exact reaches_closeContainer items s' left

section Flatten

variable {σ α : Type} {remark? : α → Option Diagnostic}
  {one : σ → List Token → Reading σ α}

/-- The runs of a body are the row up to its end. -/
lemma flatten_bodyRuns (h : AllOrderly bodyStops one remark?)
    (report : Failure → α) (s : σ) (ts : List Token) :
    (bodyRuns one s ts).flatten
      ++ (readAll bodyStops one report s ts).2.2 = ts := by
  refine flatten_runsOf (fun s t ts hk hnot => ?_) s ts
  have hend : atEnd (t :: ts) = false := atEnd_cons_eq_false.mpr hk
  have ho := h s (t :: ts) hend hnot
  rw [List.flatten_singleton]
  exact upTo_append (ho.reaches.trans (ho.reaches_next hend))

/-- The runs of a container are the row up to the next declaration. -/
lemma flatten_containerRuns (h : AllOrderly bodyStops one remark?)
    (report : Failure → α) (s : σ) {ts start next : List Token}
    (hstart : Reaches ts start)
    (hnext : Reaches (readAll bodyStops one report s start).2.2 next) :
    (containerRuns one report s ts start next).flatten ++ next = ts := by
  rw [containerRuns, List.flatten_cons, List.flatten_append,
    List.flatten_singleton, List.append_assoc, List.append_assoc,
    upTo_append hnext, flatten_bodyRuns h, upTo_append hstart]

end Flatten

/-- The runs of one declaration are the row up to the next. -/
lemma flatten_itemRuns (s : Bool) {t : Token} (hk : t.kind ≠ .endOfInput)
    (ts : List Token) :
    (itemRuns s (t :: ts)).flatten ++ (readItem s (t :: ts)).next (t :: ts)
      = t :: ts := by
  cases itemRead s t ts with
  | interface _ hstart hread hruns =>
      rw [hruns]
      exact flatten_containerRuns allOrderly_readClassPart _ s
        (.pass hk hstart) (reaches_next_of_closeContainer hk hread)
  | proto _ hts hname hstart hread hruns =>
      rw [hruns]
      refine flatten_containerRuns allOrderly_readProtocolPart _ _
        (.pass hk ?_) (reaches_next_of_closeContainer hk hread)
      rw [hts]
      exact .pass (by simp [hname]) hstart
  | plain _ _ _ hruns =>
      rw [hruns, List.flatten_singleton]
      exact upTo_append (reaches_next_item s (atEnd_cons_eq_false.mpr hk))

/-- The runs of a text are all its tokens before the end. -/
lemma flatten_headerRuns {ts : List Token} (h : EndsOnce ts) :
    ∃ e, (headerRuns ts).flatten ++ [e] = ts ∧ e.kind = .endOfInput := by
  have hflat : (headerRuns ts).flatten
      ++ (readAll [] readItem Item.ofFailure false ts).2.2 = ts :=
    flatten_runsOf (fun s t ts hk _ => flatten_itemRuns s hk ts) false ts
  have hreach : Reaches ts
      (readAll [] readItem Item.ofFailure false ts).2.2 :=
    (allOrderly_readItem.remarked (fun _ => rfl) false ts).reaches
  obtain ⟨e, hlast, he⟩ :=
    (hreach.endsOnce h).eq_singleton (atEnd_of_stop (readAll_stops false ts))
  rw [hlast] at hflat
  exact ⟨e, hflat, he⟩

end HeaderBinding
