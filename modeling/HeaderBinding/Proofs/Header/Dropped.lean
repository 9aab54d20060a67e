/-
A member that cannot be read is dropped from its class, and the members
around it are read as without it.

* `headRest`, `result_interfaceHead_superclass`: what may stand between the
  superclass and the body of a class;
* `stays_headRest`: where the body ends in a semicolon, the head of the
  class ends in front of it or takes the end of the class with it;
* `ClassFrame`: a header of one class around the tokens of its body;
  `ClassFrame.Clean`: tokens of members that are read there without a
  remark;
* `ClassFrame.Clean.exists_readsBefore`, `ClassFrame.Clean.readsRun`: such
  tokens are read as the same in front of others, and behind them;
* `drops_of_clean`: a member that is none in the class alone is dropped
  between such tokens.
-/
import HeaderBinding.Proofs.Header.Recovery

namespace HeaderBinding

open Production

/-! ### The head of a class -/

/-- The head of a class behind its superclass. -/
def headRest (name superclass : String) : Production Interface := do
  skip skipTypeArguments
  let protocols ← protocolNames .protocolsClose
  if ← accept .openBrace then
    skip (skipGroup .openBrace .closeBrace 1)
  return { name, superclass? := some superclass, protocols }

section Head

variable {name colon superclass : Token} (hname : name.kind = .identifier)
  (hcolon : colon.kind = .colon) (hsuper : superclass.kind = .identifier)
include hname hcolon hsuper

lemma result_interfaceHead_superclass (ts : List Token) :
    interfaceHead.result (name :: colon :: superclass :: ts)
      = (headRest name.value superclass.value).result ts := by
  have hword : ∀ {t : Token} (due : Expectation), t.kind = .identifier →
      ∀ ts, (expectIdentifier due).result (t :: ts) = (.ok t.value, ts) :=
    fun due ht ts => by
      rw [expectIdentifier, result_bind_of_ok
        (result_expect_cons ht (by decide) due ts), result_pure]
  have hparameters : skipTypeParameters (colon :: superclass :: ts)
      = colon :: superclass :: ts := by
    simp [skipTypeParameters, hcolon]
  have hcategory : categoryName.result (colon :: superclass :: ts)
      = (.ok none, colon :: superclass :: ts) := by
    rw [categoryName, result_bind_of_ok (result_accept_of_not_headIs
      (by simp [hcolon])), if_neg Bool.false_ne_true, result_pure]
  have hclass : superclassName.result (colon :: superclass :: ts)
      = (.ok (some superclass.value), skipTypeArguments ts) := by
    rw [superclassName, result_bind_of_ok (result_accept_of_headIs
      (by simp [hcolon])), if_pos rfl]
    exact result_bind_of_ok (hword _ hsuper ts)
  rw [interfaceHead, result_bind_of_ok (hword _ hname _),
    result_bind_of_ok (result_skip _ _), hparameters,
    result_bind_of_ok hcategory, result_bind_of_ok hclass, headRest,
    result_bind_of_ok (result_skip _ _)]

end Head

/-- The ivars in braces that a body may begin with are passed over. -/
def skipBraces (ts : List Token) : List Token :=
  if headIs .openBrace ts then skipGroup .openBrace .closeBrace 1 ts.tail
  else ts

/-- Without an angle bracket behind it, the superclass is the last of the
head. -/
lemma result_headRest (name superclass : String) {ts : List Token}
    (h : headIs .openAngle ts = false) :
    (headRest name superclass).result ts
      = (.ok { name, superclass? := some superclass }, skipBraces ts) := by
  have hskip : skipTypeArguments ts = ts := by
    rw [skipTypeArguments, h]
    rfl
  have hprotocols : (protocolNames .protocolsClose).result ts
      = (.ok [], ts) := by
    rw [protocolNames, result_bind_of_ok (result_accept_of_not_headIs h),
      if_neg Bool.false_ne_true, result_pure]
  rw [headRest, result_bind_of_ok (result_skip _ _), hskip,
    result_bind_of_ok hprotocols, skipBraces]
  cases hbrace : headIs .openBrace ts with
  | false =>
      rw [result_bind_of_ok (result_accept_of_not_headIs hbrace),
        if_neg Bool.false_ne_true, if_neg Bool.false_ne_true, result_pure]
  | true =>
      rw [result_bind_of_ok (result_accept_of_headIs hbrace), if_pos rfl,
        if_pos rfl, result_bind_of_ok (result_skip _ _), result_pure]

/-- The ivars are passed over in the head or in the body. -/
lemma readBody_skipBraces (s : Bool) (ts : List Token) :
    readBody s (skipBraces ts) = readBody s ts := by
  cases hbrace : headIs .openBrace ts with
  | false => rw [skipBraces, hbrace, if_neg Bool.false_ne_true]
  | true =>
      obtain ⟨t, ts, rfl, ht⟩ := exists_cons_of_headIs hbrace
      have hgo : t.GoesOn := by
        rw [Token.GoesOn, ht]
        decide
      have hpart : readClassPart s (t :: ts)
          = ⟨[], s, skipGroup .openBrace .closeBrace 1 ts, none⟩ := by
        rw [readClassPart, ht]
      rw [skipBraces, hbrace, if_pos rfl,
        readBody_of_ok hgo hpart (length_skipGroup_le _ _ 1 ts)]
      rfl

/-! ### The head stays in front of a semicolon -/

section Terminated

variable {as : List Token} (has : Terminated as)
include has

/-- A star in angle brackets is looked for up to the semicolon. -/
lemma pointerInAngles_append (depth : Nat) (behind : List Token) :
    pointerInAngles depth (as ++ behind) = pointerInAngles depth as := by
  induction as generalizing depth with
  | nil => exact absurd rfl has.ne_nil
  | cons t as ih =>
      by_cases ht : t.kind = .semicolon
      · simp [pointerInAngles, ht]
      · rw [List.cons_append, pointerInAngles, pointerInAngles,
          ih (has.of_cons ht), ih (has.of_cons ht), ih (has.of_cons ht)]

lemma within_skipTypeArguments :
    Within .past (fun ts => ((), skipTypeArguments ts)) as := by
  have hskip : ∀ behind, (headIs .openAngle (as ++ behind)
      && pointerInAngles 0 (as ++ behind))
        = (headIs .openAngle as && pointerInAngles 0 as) := fun behind => by
    rw [headIs_append has.ne_nil, pointerInAngles_append has]
  cases hgroup : (headIs .openAngle as && pointerInAngles 0 as) with
  | false =>
      refine .inl (stopsIn_here () has.ne_nil fun behind => ?_)
      rw [skipTypeArguments, hskip, hgroup, if_neg Bool.false_ne_true]
  | true =>
      obtain ⟨t, as, rfl, ht⟩ :=
        exists_cons_of_headIs (Bool.and_eq_true_iff.mp hgroup).1
      refine ((readsGroup_skipGroup .openAngle .closeAngle).within (by decide)
        (.inr (has.of_cons (by simp [ht]))) 0).of_step (m := id)
        (List.suffix_cons t as) fun behind => ?_
      rw [skipTypeArguments, hskip, hgroup, if_pos rfl]
      rfl

lemma stopsIn_identifierList : StopsIn (identifierList .closeAngle) as := by
  induction as with
  | nil => exact absurd rfl has.ne_nil
  | cons t as ih =>
      by_cases hstop : t.kind = .closeAngle
      · refine stopsIn_here [] has.ne_nil fun behind => ?_
        rw [List.cons_append, identifierList, if_pos hstop]
      by_cases hpass : t.kind = .directive ∨ t.kind = .comma
      · have hne : t.kind ≠ .semicolon := by
          rcases hpass with h | h <;> simp [h]
        refine (ih (has.of_cons hne)).cons (e := id) fun ts => ?_
        rw [identifierList, if_neg hstop, if_pos hpass]
        rfl
      by_cases hword : t.kind = .identifier
      · refine (ih (has.of_cons (by simp [hword]))).cons (e := (t.value :: ·))
          fun ts => ?_
        rw [identifierList, if_neg hstop, if_neg hpass, if_pos hword]
      · refine stopsIn_here [] has.ne_nil fun behind => ?_
        rw [List.cons_append, identifierList, if_neg hstop, if_neg hpass,
          if_neg hword]

lemma stays_protocolNames (due : Expectation) :
    (protocolNames due).Stays .past false as := by
  refine stays_accept_ite has (by decide) (fun _ as _ _ has => ?_)
    (stays_of_stopsIn (stopsIn_pure has.ne_nil []))
  refine stays_bind_of_stopsIn (stopsIn_scan (stopsIn_identifierList has))
    fun names bs hne hs => ?_
  exact stays_bind_of_stopsIn (stopsIn_expect (has.of_suffix hs hne)
    (by decide) (by decide) due) fun _ _ hne _ =>
      stays_of_stopsIn (stopsIn_pure hne _)

/-- The head of a class ends within the tokens, or it takes the end of the
class with it. -/
theorem stays_headRest (name superclass : String) :
    (headRest name superclass).Stays .past false as := by
  have hbraces : ∀ protocols, (accept .openBrace >>= fun b =>
      if b = true then skip (skipGroup .openBrace .closeBrace 1) >>= fun _ =>
        pure { name, superclass? := some superclass, protocols }
      else pure { name, superclass? := some superclass, protocols }
        : Production Interface).Onward := fun _ =>
    (onward_accept (by decide)).bind fun _ =>
      (onward_skip (reaches_skipGroup _ _ 1)).when_bind (onward_pure _)
  refine (stays_scan (within_skipTypeArguments has)).bind (fun _ =>
    (onward_protocolNames _).bind hbraces) fun _ bs hne hs => ?_
  replace has := has.of_suffix hs hne
  refine (stays_protocolNames has _).bind hbraces
    fun protocols cs hne hs => ?_
  replace has := has.of_suffix hs hne
  refine stays_accept_ite has (by decide) (fun _ ds _ _ has => ?_)
    (stays_of_stopsIn (stopsIn_pure has.ne_nil _))
  exact (stays_scan ((readsGroup_skipGroup _ _).within (by decide)
    (.inr has) 0)).bind (fun _ => onward_pure _) fun _ _ hne _ =>
      stays_of_stopsIn (stopsIn_pure hne _)

end Terminated

/-! ### A header of one class -/

/-- A header that holds one class with a superclass, but for the body of
the class. -/
structure ClassFrame where
  file : String
  keyword : Token
  name : Token
  colon : Token
  superclass : Token
  closing : Token
  last : Token
  keyword_kind : keyword.kind = .atInterface
  name_kind : name.kind = .identifier
  colon_kind : colon.kind = .colon
  superclass_kind : superclass.kind = .identifier
  closing_kind : closing.kind = .atEnd
  last_kind : last.kind = .endOfInput

namespace ClassFrame

variable (frame : ClassFrame)

/-- The tokens behind a body. -/
def behind : List Token :=
  [frame.closing, frame.last]

/-- The tokens behind the keyword of the class, with a row for its body and
what follows. -/
def inside (row : List Token) : List Token :=
  frame.name :: frame.colon :: frame.superclass :: row

/-- The tokens of the header with a body for the class. -/
def tokens (body : List Token) : List Token :=
  frame.keyword :: frame.inside (body ++ frame.behind)

/-- The header with a body for the class. -/
def header (body : List Token) : Header :=
  readTokens frame.file (frame.tokens body)

lemma closeTokens_tokens (body : List Token) :
    closeTokens (frame.tokens body) = frame.tokens body := by
  have hlast : frame.tokens body = (frame.keyword :: frame.name
      :: frame.colon :: frame.superclass :: (body ++ [frame.closing]))
        ++ [frame.last] := by
    simp [tokens, inside, behind]
  rw [hlast, closeTokens, List.getLast?_concat]
  simp [frame.last_kind]

lemma readItem_tokens (body : List Token) :
    readItem false (frame.tokens body)
      = readInterface false (frame.inside (body ++ frame.behind)) := by
  rw [tokens, readItem, frame.keyword_kind]

lemma atEnd_tokens (body : List Token) :
    atEnd (frame.tokens body) = false :=
  atEnd_cons_eq_false.mpr (by simp [frame.keyword_kind])

/-- The class is read first; other items may be read behind it. -/
lemma exists_header_eq (body : List Token) :
    ∃ more, frame.header body = Header.ofItems frame.file
      ((readInterface false (frame.inside (body ++ frame.behind))).found
        Item.ofFailure ++ more) := by
  rw [header, readTokens, frame.closeTokens_tokens, readItems, readAll,
    dif_neg (not_stop_iff.mpr (frame.atEnd_tokens body))]
  simp only [frame.readItem_tokens]
  exact ⟨_, rfl⟩

/-- The class in the header has the head and the parts, and ends where the
header does. -/
def ReadsAs (body : List Token) (head : Interface)
    (parts : List ClassPart) : Prop :=
  ∃ rest s, interfaceHead.result (frame.inside (body ++ frame.behind))
      = (.ok head, rest)
    ∧ readBody false rest = (parts, s, frame.behind)

end ClassFrame

lemma filterMap_remark?_classItems (head : Interface)
    (parts : List ClassPart) :
    (classItems head parts).filterMap Item.remark?
      = parts.filterMap ClassPart.remark? := by
  rw [classItems, List.filterMap_cons_none rfl, List.filterMap_map]
  simp only [Function.comp_def, Item.remark?, List.filterMap_some]

section Frame

variable {frame : ClassFrame} {body : List Token} {head : Interface}
  {parts : List ClassPart}

lemma ClassFrame.ReadsAs.header_eq (h : frame.ReadsAs body head parts) :
    frame.header body
      = Header.ofItems frame.file (classItems head parts) := by
  obtain ⟨rest, s, hhead, hbody⟩ := h
  have hitem : readItem false (frame.tokens body)
      = ⟨classItems head parts, s, [frame.last], none⟩ := by
    rw [frame.readItem_tokens, readInterface_of_ok hhead]
    show closeContainer (classItems head (readBody false rest).1)
      (readBody false rest).2.1 (readBody false rest).2.2 = _
    rw [hbody]
    exact closeContainer_of_ok
      (result_expect_cons frame.closing_kind (by decide) _ _)
  rw [ClassFrame.header, readTokens, frame.closeTokens_tokens, readItems,
    readAll_of_item (frame.atEnd_tokens body) hitem
      (by simp [ClassFrame.tokens, ClassFrame.inside]),
    readAll_end frame.last_kind, List.append_nil]

/-- The class has the members and the remarks of its parts. -/
lemma ClassFrame.ReadsAs.interfaces_eq (h : frame.ReadsAs body head parts) :
    (frame.header body).interfaces = [head.ofParts parts] := by
  rw [h.header_eq]
  exact filterMap_interface?_classItems head parts

lemma ClassFrame.ReadsAs.diagnostics_eq (h : frame.ReadsAs body head parts) :
    (frame.header body).diagnostics
      = parts.filterMap ClassPart.remark? := by
  rw [h.header_eq]
  exact filterMap_remark?_classItems head parts

/-- Whatever stands in its body, a class with a head is in the header. -/
lemma ClassFrame.ofParts_mem_interfaces {rest : List Token}
    (h : interfaceHead.result (frame.inside (body ++ frame.behind))
      = (.ok head, rest)) :
    head.ofParts (readBody false rest).1
      ∈ (frame.header body).interfaces := by
  obtain ⟨more, hmore⟩ := frame.exists_header_eq body
  have hitems : (readInterface false (frame.inside
      (body ++ frame.behind))).items
        = classItems head (readBody false rest).1 := by
    rw [readInterface_of_ok h]
    exact items_closeContainer _ _ _
  rw [hmore]
  refine List.mem_filterMap.mpr ⟨.interface _, ?_, rfl⟩
  rw [Reading.found, hitems, classItems]
  simp

lemma headIs_of_closeContainer {σ : Type} {items : List Item} {s : σ}
    {ts : List Token} (h : (closeContainer items s ts).failure? = none) :
    headIs .atEnd ts = true := by
  rcases hres : (expect .atEnd .containerEnd).result ts with ⟨f | t, rest⟩
  · rw [closeContainer_of_error hres] at h
    cases h
  · obtain ⟨rfl, hk⟩ := eq_cons_of_result_expect (by decide) hres
    simp [hk]

/-- The end of the class stands only behind the body. -/
lemma ClassFrame.eq_behind {as rest : List Token}
    (has : ∀ t ∈ as, t.kind ≠ .atEnd) (hs : rest <:+ as ++ frame.behind)
    (h : headIs .atEnd rest = true) : rest = frame.behind := by
  obtain ⟨t, rest, rfl, ht⟩ := exists_cons_of_headIs h
  induction as with
  | nil =>
      rcases List.suffix_cons_iff.mp hs with heq | hs
      · exact heq
      · obtain rfl : t = frame.last := by
          simpa using hs.subset List.mem_cons_self
        rw [frame.last_kind] at ht
        cases ht
  | cons a as ih =>
      rw [List.forall_mem_cons] at has
      rcases List.suffix_cons_iff.mp hs with heq | hs
      · obtain rfl := (List.cons.inj heq).1
        exact absurd ht has.1
      · exact ih has.2 hs

/-- A body without a remark is read up to the end of the class. -/
lemma ClassFrame.exists_readsAs (hgo : ∀ t ∈ body, t.GoesOn)
    (h : (frame.header body).diagnostics = []) :
    ∃ head parts, frame.ReadsAs body head parts
      ∧ parts.filterMap ClassPart.remark? = [] := by
  obtain ⟨more, hmore⟩ := frame.exists_header_eq body
  rw [hmore] at h
  replace h : (_ ++ more).filterMap Item.remark? = [] := h
  rw [List.filterMap_append, List.append_eq_nil_iff] at h
  obtain ⟨hfail, hitems⟩ := Reading.of_found_eq_nil h.1 fun _ => rfl
  rcases hhead : interfaceHead.result (frame.inside (body ++ frame.behind))
    with ⟨f | head, rest⟩
  · rw [readInterface_of_error hhead] at hfail
    cases hfail
  rw [readInterface_of_ok hhead] at hfail hitems
  dsimp only at hfail hitems
  rw [items_closeContainer, filterMap_remark?_classItems] at hitems
  have hsuffix : (readBody false rest).2.2 <:+ (frame.name :: frame.colon
      :: frame.superclass :: body) ++ frame.behind :=
    ((onward_interfaceHead.reaches hhead).trans
      (reaches_readBody false rest)).suffix
  have hend : (readBody false rest).2.2 = frame.behind := by
    refine frame.eq_behind ?_ hsuffix (headIs_of_closeContainer hfail)
    have hkeyword : ∀ t ∈ body, t.kind ≠ .atEnd := fun t ht hk =>
      hgo t ht (hk ▸ by decide)
    simpa [frame.name_kind, frame.colon_kind, frame.superclass_kind]
  exact ⟨head, _, ⟨rest, (readBody false rest).2.1, hhead,
    Prod.ext rfl (Prod.ext rfl hend)⟩, hitems⟩

end Frame

/-! ### Members without a remark -/

/-- Tokens that are empty or end in a semicolon, and that are read without
a remark as the body of the class. -/
structure ClassFrame.Clean (frame : ClassFrame) (as : List Token) : Prop where
  ends : as = [] ∨ Terminated as
  goesOn : ∀ t ∈ as, t.GoesOn
  silent : (frame.header as).diagnostics = []

section Clean

variable {frame : ClassFrame} {as : List Token}

lemma ClassFrame.result_inside (ts : List Token) :
    interfaceHead.result (frame.inside ts)
      = (headRest frame.name.value frame.superclass.value).result ts :=
  result_interfaceHead_superclass frame.name_kind frame.colon_kind
    frame.superclass_kind ts

/-- The class without members. -/
def ClassFrame.plain (frame : ClassFrame) : Interface :=
  { name := frame.name.value, superclass? := some frame.superclass.value }

/-- Behind the head the parts are read, and then those of what follows. -/
def ClassFrame.ReadsBefore (frame : ClassFrame) (as : List Token)
    (head : Interface) (parts : List ClassPart) (s : Bool) : Prop :=
  ∀ ts, headIs .openAngle ts = false →
    ∃ rest, interfaceHead.result (frame.inside (as ++ ts)) = (.ok head, rest)
      ∧ readBody false rest
        = (parts ++ (readBody s ts).1, (readBody s ts).2)

lemma ClassFrame.readsBefore_nil :
    frame.ReadsBefore [] frame.plain [] false := by
  intro ts hangle
  refine ⟨skipBraces ts, ?_, ?_⟩
  · rw [ClassFrame.result_inside, List.nil_append, result_headRest _ _ hangle]
    rfl
  · rw [readBody_skipBraces]
    rfl

lemma ClassFrame.headIs_behind : headIs .atEnd frame.behind = true := by
  simp [ClassFrame.behind, frame.closing_kind]

/-- Members without a remark that do not begin with an angle bracket are
read so behind others. -/
lemma ClassFrame.Clean.readsRun (h : frame.Clean as)
    (hangle : headIs .openAngle as = false) : ReadsRun as := by
  obtain ⟨head, parts, ⟨rest, s, hhead, hbody⟩, hparts⟩ :=
    ClassFrame.exists_readsAs h.goesOn h.silent
  rcases h.ends with rfl | hends
  · exact readsRun_nil
  rw [ClassFrame.result_inside, result_headRest _ _
    (by rwa [headIs_append hends.ne_nil])] at hhead
  obtain ⟨-, rfl⟩ := Prod.mk.inj hhead
  rw [readBody_skipBraces] at hbody
  exact readsRun_of_alone h.ends h.goesOn frame.headIs_behind
    (by rw [hbody]; exact hparts) (by rw [hbody])

/-- Members without a remark are read so in front of others.  They may
begin with the protocols of the class. -/
theorem ClassFrame.Clean.exists_readsBefore (h : frame.Clean as) :
    ∃ head parts s, parts.filterMap ClassPart.remark? = []
      ∧ frame.ReadsBefore as head parts s := by
  rcases h.ends with rfl | hends
  · exact ⟨_, [], false, rfl, frame.readsBefore_nil⟩
  obtain ⟨head, parts, ⟨rest, s, hhead, hbody⟩, hparts⟩ :=
    ClassFrame.exists_readsAs h.goesOn h.silent
  rw [ClassFrame.result_inside] at hhead
  rcases stays_headRest hends frame.name.value frame.superclass.value with
    ⟨r, mid, -, hs, heq⟩ | hall
  · rw [heq] at hhead
    obtain ⟨rfl, rfl⟩ := Prod.mk.inj hhead
    obtain ⟨parts, s, hparts, hrun⟩ := readsRun_of_alone (hends.rest hs)
      (fun t ht => h.goesOn t (hs.subset ht)) frame.headIs_behind
      (by rw [hbody]; exact hparts) (by rw [hbody]) false
    refine ⟨head, parts, s, hparts, fun ts _ => ⟨mid ++ ts, ?_, hrun ts⟩⟩
    rw [ClassFrame.result_inside, heq]
  · -- then the end of the class would not be left
    have hpast := hall frame.behind frame.headIs_behind
    rw [hhead] at hpast
    have hle := (reaches_readBody false rest).length_le
    rw [hbody] at hle
    exact absurd (hpast.resolve_left Bool.false_ne_true) (Nat.not_lt.mpr hle)

end Clean

/-! ### A member between others -/

/-- No class of the header has a member. -/
def ClassFrame.NoMember (frame : ClassFrame) (body : List Token) : Prop :=
  ∀ i ∈ (frame.header body).interfaces, i.properties = []
    ∧ i.instanceMethods = [] ∧ i.classMethods = []

/-- The classes have the same members, and the same is said of their
initializers. -/
def Interface.SameMembers (i j : Interface) : Prop :=
  i.properties = j.properties ∧ i.instanceMethods = j.instanceMethods
    ∧ i.classMethods = j.classMethods
    ∧ i.initUnavailable = j.initUnavailable

/-- Between the others the tokens leave one remark, which stands at one of
them; the class has the members that it has without them. -/
def ClassFrame.Drops (frame : ClassFrame) (g₁ b g₂ : List Token) : Prop :=
  ∃ i j d, (frame.header (g₁ ++ g₂)).interfaces = [i]
    ∧ (frame.header (g₁ ++ b ++ g₂)).interfaces = [j]
    ∧ j.SameMembers i
    ∧ (frame.header (g₁ ++ b ++ g₂)).diagnostics = [d] ∧ d.Among b

section Members

variable {frame : ClassFrame}

/-- What is read behind members stands behind their parts. -/
lemma ClassFrame.ReadsBefore.readsAs {as body : List Token}
    {head : Interface} {parts more : List ClassPart} {s s' : Bool}
    (h : frame.ReadsBefore as head parts s)
    (hangle : headIs .openAngle (body ++ frame.behind) = false)
    (hread : readBody s (body ++ frame.behind) = (more, s', frame.behind)) :
    frame.ReadsAs (as ++ body) head (parts ++ more) := by
  obtain ⟨rest, hhead, hbody⟩ := h (body ++ frame.behind) hangle
  rw [hread] at hbody
  refine ⟨rest, s', ?_, hbody⟩
  rw [List.append_assoc]
  exact hhead

/-- A member that is none alone in the class is dropped from bodies. -/
lemma MemberRun.dropped {mark : Token} {as : List Token}
    (h : MemberRun mark as) (hnone : frame.NoMember (mark :: as)) :
    ∃ d, d.Among as ∧ OnlyRemark d (mark :: as) := by
  refine h.read_or_dropped.resolve_left fun hread => ?_
  have hangle : headIs .openAngle (mark :: as ++ frame.behind) = false :=
    headIs_eq_false (headIn_of_mem h.mark_mem _) (by decide)
  obtain ⟨rest, hhead, hbody⟩ :=
    frame.readsBefore_nil (mark :: as ++ frame.behind) hangle
  have hmem := ClassFrame.ofParts_mem_interfaces hhead
  obtain ⟨part, more, hparts, hmember⟩ := hread false frame.behind
  rw [hbody, List.nil_append, hparts] at hmem
  obtain ⟨hproperties, hinstance, hclass⟩ := hnone _ hmem
  cases part with
  | property p => cases hproperties
  | instanceMethod m => cases hinstance
  | classMethod m => cases hclass
  | initUnavailable => cases hmember
  | remark d => cases hmember

/-- A remark among its parts changes nothing in the class. -/
lemma ofParts_remark (head : Interface) (parts more : List ClassPart)
    (d : Diagnostic) :
    head.ofParts (parts ++ .remark d :: more)
      = head.ofParts (parts ++ more) := by
  have hfilter : ∀ {α : Type} {f : ClassPart → Option α},
      f (.remark d) = none → (parts ++ .remark d :: more).filterMap f
        = (parts ++ more).filterMap f := fun hf => by
    rw [List.filterMap_append, List.filterMap_cons_none hf,
      List.filterMap_append]
  rw [Interface.ofParts, Interface.ofParts, hfilter rfl, hfilter rfl,
    hfilter rfl]
  simp

lemma readBody_behind (s : Bool) :
    readBody s frame.behind = ([], s, frame.behind) := by
  have hstop : headIn bodyStops frame.behind = true :=
    headIn_imp (headIn_of_headIs frame.headIs_behind) (by decide)
  rw [readBody, readAll, dif_pos (.inr hstop)]

/-- A member that is none alone in the class is dropped between members
that are read there without a remark, if no angle bracket comes behind it;
one that comes behind the superclass would open the protocols of the
class. -/
theorem drops_of_clean {g₁ g₂ as : List Token} {mark : Token}
    (h₁ : frame.Clean g₁) (hmember : MemberRun mark as)
    (hnone : frame.NoMember (mark :: as)) (h₂ : frame.Clean g₂)
    (hangle : headIs .openAngle g₂ = false) :
    frame.Drops g₁ (mark :: as) g₂ := by
  obtain ⟨head, parts, s, hparts, hbefore⟩ := h₁.exists_readsBefore
  obtain ⟨d, ⟨t, ht, hd⟩, hdrop⟩ := hmember.dropped hnone
  obtain ⟨more, s', hmore, hrun⟩ := h₂.readsRun hangle s
  have hafter : readBody s (g₂ ++ frame.behind)
      = (more, s', frame.behind) := by
    rw [hrun, readBody_behind, List.append_nil]
  have hnext : headIs .openAngle (g₂ ++ frame.behind) = false := by
    rcases h₂.ends with rfl | hends
    · exact headIs_eq_false (headIn_of_headIs frame.headIs_behind) (by decide)
    · rwa [headIs_append hends.ne_nil]
  have hbetween : readBody s (mark :: as ++ g₂ ++ frame.behind)
      = (.remark d :: more, s', frame.behind) := by
    rw [List.append_assoc, hdrop, hafter]
  have hwithout := hbefore.readsAs hnext hafter
  have hwith := hbefore.readsAs
    (headIs_eq_false (headIn_of_mem hmember.mark_mem _) (by decide)) hbetween
  rw [← List.append_assoc] at hwith
  refine ⟨_, _, d, hwithout.interfaces_eq, hwith.interfaces_eq, ?_, ?_,
    t, List.mem_cons_of_mem mark ht, hd⟩
  · rw [ofParts_remark]
    exact ⟨rfl, rfl, rfl, rfl⟩
  · rw [hwith.diagnostics_eq, List.filterMap_append, hparts]
    exact congrArg (List.cons d) hmore

end Members

/-- A class of the name `N` with the superclass `S`. -/
def smallFrame : ClassFrame where
  file := ""
  keyword := ⟨.atInterface, "@interface", 1, 1⟩
  name := ⟨.identifier, "N", 1, 12⟩
  colon := ⟨.colon, ":", 1, 14⟩
  superclass := ⟨.identifier, "S", 1, 16⟩
  closing := ⟨.atEnd, "@end", 5, 1⟩
  last := ⟨.endOfInput, "", 6, 1⟩
  keyword_kind := rfl
  name_kind := rfl
  colon_kind := rfl
  superclass_kind := rfl
  closing_kind := rfl
  last_kind := rfl

/-- A method without a selector between a macro and another method. -/
theorem drops_missing_selector :
    smallFrame.Drops
      [⟨.identifier, "INIT_UNAVAILABLE", 2, 1⟩, ⟨.semicolon, ";", 2, 17⟩]
      [⟨.minus, "-", 3, 1⟩, ⟨.openParen, "(", 3, 3⟩, ⟨.kwVoid, "void", 3, 4⟩,
        ⟨.closeParen, ")", 3, 8⟩, ⟨.semicolon, ";", 3, 9⟩]
      [⟨.minus, "-", 4, 1⟩, ⟨.identifier, "ok", 4, 3⟩,
        ⟨.semicolon, ";", 4, 5⟩] := by
  have hmacro : smallFrame.Clean
      [⟨.identifier, "INIT_UNAVAILABLE", 2, 1⟩, ⟨.semicolon, ";", 2, 17⟩] :=
    ⟨.inr ⟨[⟨.identifier, "INIT_UNAVAILABLE", 2, 1⟩], _, rfl, rfl⟩,
      by decide, by decide +kernel⟩
  have hmethod : smallFrame.Clean [⟨.minus, "-", 4, 1⟩,
      ⟨.identifier, "ok", 4, 3⟩, ⟨.semicolon, ";", 4, 5⟩] :=
    ⟨.inr ⟨[⟨.minus, "-", 4, 1⟩, ⟨.identifier, "ok", 4, 3⟩], _, rfl, rfl⟩,
      by decide, by decide +kernel⟩
  have hstatement : IsStatement [⟨.openParen, "(", 3, 3⟩,
      ⟨.kwVoid, "void", 3, 4⟩, ⟨.closeParen, ")", 3, 8⟩,
      ⟨.semicolon, ";", 3, 9⟩] :=
    ⟨[⟨.openParen, "(", 3, 3⟩, ⟨.kwVoid, "void", 3, 4⟩,
      ⟨.closeParen, ")", 3, 8⟩], _, rfl, rfl, by decide⟩
  refine drops_of_clean hmacro
    ⟨by decide, hstatement, by decide, fun h => nomatch h⟩ ?_ hmethod
    (by decide)
  rw [ClassFrame.NoMember]
  decide +kernel

/-- In front of an angle bracket the member is not dropped: without it, the
bracket would open the protocols of the class. -/
theorem not_drops_before_angle :
    ¬ ∀ (frame : ClassFrame) (g₁ g₂ as : List Token) (mark : Token),
      frame.Clean g₁ → MemberRun mark as → frame.NoMember (mark :: as) →
        frame.Clean g₂ → frame.Drops g₁ (mark :: as) g₂ := by
  intro h
  let semicolon : Token := ⟨.semicolon, ";", 2, 3⟩
  let angles : List Token := [⟨.openAngle, "<", 3, 1⟩,
    ⟨.identifier, "INIT_UNAVAILABLE", 3, 2⟩, ⟨.closeAngle, ">", 3, 18⟩]
  obtain ⟨i, j, d, hi, hj, ⟨-, -, -, hsame⟩, -⟩ := h smallFrame []
    (angles ++ [⟨.semicolon, ";", 3, 20⟩]) [semicolon] ⟨.minus, "-", 2, 1⟩
    ⟨.inl rfl, by decide, by decide +kernel⟩
    ⟨by decide, ⟨[], semicolon, rfl, rfl, by decide⟩, by decide,
      fun h => nomatch h⟩
    (by rw [ClassFrame.NoMember]; decide +kernel)
    ⟨.inr ⟨angles, _, rfl, rfl⟩, by decide, by decide +kernel⟩
  have hwithout : i.initUnavailable = false := by
    have hflags := congrArg (List.map Interface.initUnavailable) hi
    exact List.singleton_inj.mp (hflags.symm.trans (by decide +kernel))
  have hwith : j.initUnavailable = true := by
    have hflags := congrArg (List.map Interface.initUnavailable) hj
    exact List.singleton_inj.mp (hflags.symm.trans (by decide +kernel))
  rw [hwithout, hwith] at hsame
  cases hsame

/-- A semicolon that is taken for the value of an attribute ends no member;
the method behind it is dropped as well. -/
example : (smallFrame.header
      [⟨.atProperty, "@property", 2, 1⟩, ⟨.openParen, "(", 2, 11⟩,
        ⟨.identifier, "setter", 2, 12⟩, ⟨.equals, "=", 2, 18⟩,
        ⟨.semicolon, ";", 2, 19⟩, ⟨.minus, "-", 3, 1⟩,
        ⟨.identifier, "ok", 3, 3⟩, ⟨.semicolon, ";", 3, 5⟩]).interfaces.map
        Interface.instanceMethods
    = [[]] := by
  decide +kernel

end HeaderBinding
