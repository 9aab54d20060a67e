/-
Every class and protocol that is read of a text is well formed.

* `Worded`: the words in a row of tokens are spelled with the characters
  of words; `worded_tokenize`: so they are in the tokens of a text;
* `Method.IsWellFormed`, `Property.IsWellFormed`: a selector has a colon
  for each parameter, and null is marked where a type allows it;
* `isWellFormed_of_methodBody`, `isWellFormed_of_propertyBody`: members
  that are read of worded rows are well formed;
* `forall_mem_readAll`: what holds of each item that is read in a
  container holds of all;
* `members_isWellFormed`: the members of all classes and protocols of a
  header are well formed, and as optional as the list that they stand in.
-/
import HeaderBinding.Proofs.Header.Markers

namespace HeaderBinding

open Production

/-! ### Words -/

/-- A character that words are spelled with. -/
def isLabelChar (c : Char) : Bool :=
  isWordChar c || c == '@'

/-- The text is spelled with the characters of words. -/
def IsLabel (text : String) : Prop :=
  ∀ c ∈ text.toList, isLabelChar c = true

/-- The kinds of tokens that name members. -/
def wordKinds : List TokenKind :=
  .identifier :: labelKeywords

/-- The words in a row of tokens are spelled as such. -/
def Worded (ts : List Token) : Prop :=
  ∀ t ∈ ts, t.kind ∈ wordKinds → IsLabel t.value

lemma isLabel_empty : IsLabel "" :=
  List.forall_mem_nil _

lemma IsLabel.not_mem {text : String} (h : IsLabel text) {c : Char}
    (hc : isLabelChar c = false) : c ∉ text.toList := fun hmem => by
  rw [h c hmem] at hc
  cases hc

lemma punctuationKind_not_mem_wordKinds (c : Char) :
    punctuationKind c ∉ wordKinds := by
  unfold punctuationKind
  split <;> decide

/-- The text of a word is spelled as one. -/
lemma isLabelChar_of_shape {rules : MacroRules} {kind : TokenKind}
    {cs : List Char} (h : Shape rules kind cs) (hk : kind ∈ wordKinds) :
    ∀ c ∈ cs, isLabelChar c = true := by
  have hword : ∀ {c}, isWordChar c = true → isLabelChar c = true :=
    fun h => by rw [isLabelChar, h, Bool.true_or]
  cases h with
  | hexadecimal => exact absurd hk (by decide)
  | number => exact absurd hk (by decide)
  | word _ _ hc hw _ =>
      exact List.forall_mem_cons.mpr
        ⟨hword (isWordChar_of_isNameStart hc), fun d hd => hword (hw d hd)⟩
  | marked hc hw =>
      exact List.forall_mem_cons.mpr ⟨by decide, List.forall_mem_cons.mpr
        ⟨hword (isWordChar_of_isNameStart hc), fun d hd => hword (hw d hd)⟩⟩
  | ellipsis => exact absurd hk (by decide)
  | mark => exact absurd hk (punctuationKind_not_mem_wordKinds _)

/-- The words of a text are spelled as such. -/
theorem worded_tokenize (rules : MacroRules) (text : String) :
    Worded (tokenize rules text) := by
  intro t ht hk
  have hends : ∀ kind ∈ wordKinds, kind ≠ .endOfInput := by decide
  have hplain : ∀ kind ∈ wordKinds,
      kind ∉ [TokenKind.string, .char, .directive] ∧ kind ≠ .unknown := by
    decide
  have hread : Readable rules t.face :=
    readable_of_mem_tokenize ht (hends _ hk)
      ⟨(hplain _ hk).1, fun h => (hplain _ hk).2 (congrArg Prod.fst h)⟩
  exact isLabelChar_of_shape hread hk

lemma Worded.of_reaches {ts rest : List Token} (h : Worded ts)
    (hr : Reaches ts rest) : Worded rest :=
  fun t ht => h t (hr.suffix.subset ht)

/-! ### Members -/

/-- A method is marked nullable where its types are, and has a parameter
for each colon of its selector, which otherwise consists of words. -/
structure Method.IsWellFormed (m : Method) : Prop where
  arity : m.parameters.length = m.selector.toList.count ':'
  spelled : ∀ c ∈ m.selector.toList, isLabelChar c = true ∨ c = ':'
  returnNullable : m.returnNullable = typeIsNullable m.returnType
  nullable : ∀ p ∈ m.parameters, p.nullable = typeIsNullable p.type

/-- A property is marked nullable where its type is, and its name is a
word. -/
structure Property.IsWellFormed (p : Property) : Prop where
  spelled : IsLabel p.name
  nullable : typeIsNullable p.type = true → p.nullable = true

/-- A segment of a selector with its colon, and its parameter. -/
structure IsSegment (s : String × Parameter) : Prop where
  label : ∃ label, s.1 = label ++ ":" ∧ IsLabel label
  nullable : s.2.nullable = typeIsNullable s.2.type

lemma yields_methodParameter :
    methodParameter.Yields fun p => p.nullable = typeIsNullable p.type :=
  Yields.bind fun _ => Yields.bind fun _ => yields_pure rfl

lemma isLabel_of_startsLabel {t : Token} {us : List Token}
    (hw : Worded (t :: us)) (h : startsLabel (t :: us) = true) :
    IsLabel t.value :=
  hw t List.mem_cons_self (List.mem_cons.mpr
    ((startsLabel_cons_iff.mp h).imp_left And.left))

lemma isSegment_of_furtherSegment {s : String × Parameter}
    {ts rest : List Token} (hw : Worded ts)
    (h : furtherSegment.result ts = (.ok (some s), rest)) : IsSegment s := by
  obtain ⟨label, mid, hs, -, hparameter, hlabel⟩ :=
    exists_of_furtherSegment h
  refine ⟨⟨label, hs, ?_⟩, yields_methodParameter _ _ _ hparameter⟩
  rcases hlabel with rfl | ⟨t, us, rfl, hlook, rfl, -⟩
  · exact isLabel_empty
  · exact isLabel_of_startsLabel hw hlook

lemma isSegment_of_selectorSegments {label : String}
    {ss : List (String × Parameter)} {ts rest : List Token}
    (hlabel : IsLabel label) (hw : Worded ts)
    (h : (selectorSegments label).result ts = (.ok ss, rest)) :
    ss.isEmpty = false ∧ ∀ s ∈ ss, IsSegment s := by
  obtain ⟨p, others, mid, last, rfl, hparameter, hothers, -⟩ :=
    exists_of_selectorSegments h
  have hmid := hw.of_reaches (onward_methodParameter.reaches hparameter)
  refine ⟨rfl, List.forall_mem_cons.mpr
    ⟨⟨⟨label, rfl, hlabel⟩, yields_methodParameter _ _ _ hparameter⟩,
      fun s hs => ?_⟩⟩
  obtain ⟨us, behind, hus, hone, -⟩ :=
    exists_of_mem_repeated onward_furtherSegment hothers hs
  exact isSegment_of_furtherSegment (hmid.of_reaches hus) hone

lemma isLabelChar_colon : isLabelChar ':' = false := by
  decide

/-- Each segment of a selector has one colon. -/
lemma count_colon_join {ss : List (String × Parameter)}
    (h : ∀ s ∈ ss, IsSegment s) :
    (String.join (ss.map (·.1))).toList.count ':' = ss.length := by
  induction ss with
  | nil => rfl
  | cons s ss ih =>
      rw [List.forall_mem_cons] at h
      obtain ⟨label, hs, hlabel⟩ := h.1.label
      have hcount : label.toList.count ':' = 0 :=
        List.count_eq_zero.mpr (hlabel.not_mem isLabelChar_colon)
      rw [List.map_cons, String.join_cons, String.toList_append,
        List.count_append, ih h.2, hs, String.toList_append,
        List.count_append, hcount, List.length_cons, Nat.add_comm]
      rfl

lemma spelled_join {ss : List (String × Parameter)}
    (h : ∀ s ∈ ss, IsSegment s) :
    ∀ c ∈ (String.join (ss.map (·.1))).toList,
      isLabelChar c = true ∨ c = ':' := by
  induction ss with
  | nil => exact List.forall_mem_nil _
  | cons s ss ih =>
      rw [List.forall_mem_cons] at h
      obtain ⟨label, hs, hlabel⟩ := h.1.label
      intro c hc
      rw [List.map_cons, String.join_cons, String.toList_append,
        List.mem_append, hs, String.toList_append, List.mem_append] at hc
      rcases hc with (hc | hc) | hc
      · exact .inl (hlabel c hc)
      · exact .inr (List.mem_singleton.mp hc)
      · exact ih h.2 c hc

/-- A method that is read of a worded row is well formed. -/
theorem isWellFormed_of_methodBody {inScope : Bool} {m : Method}
    {ts rest : List Token} (hw : Worded ts)
    (h : (methodBody inScope).result ts = (.ok m, rest)) :
    m.IsWellFormed := by
  have hreturn := (yields_methodBody inScope _ _ _ h).2.1
  obtain ⟨t, us, ss, last, htype, hlook, hus, hlast, hparameters, hselector,
    hss⟩ := exists_of_methodBody h
  have hrow := hw.of_reaches ((onward_parenthesizedType _).reaches htype)
  have hlabel := isLabel_of_startsLabel hrow hlook
  rcases hss with rfl | ⟨mid, hmid, hss⟩
  · refine ⟨?_, fun c hc => .inl ?_, hreturn, ?_⟩
    · rw [hparameters, hselector]
      exact (List.count_eq_zero.mpr
        (hlabel.not_mem isLabelChar_colon)).symm
    · rw [hselector] at hc
      exact hlabel c hc
    · rw [hparameters]
      exact List.forall_mem_nil _
  · have htail : Worded us := fun u hu => hrow u (List.mem_cons_of_mem t hu)
    obtain ⟨hsome, hsegments⟩ := isSegment_of_selectorSegments hlabel
      (htail.of_reaches hmid) hss
    rw [hsome, if_neg Bool.false_ne_true] at hselector
    refine ⟨?_, ?_, hreturn, ?_⟩
    · rw [hparameters, hselector, count_colon_join hsegments,
        List.length_map]
    · rw [hselector]
      exact spelled_join hsegments
    · rw [hparameters]
      exact List.forall_mem_map.mpr fun s hs => (hsegments s hs).nullable

/-- What is named by the identifier that comes next has a word as its
name. -/
lemma isLabel_of_expectIdentifier {α : Type} {due : Expectation}
    {k : String → Production (String × α)}
    (hk : ∀ name, (k name).Yields (·.1 = name)) {named : String × α}
    {ts rest : List Token} (hw : Worded ts)
    (h : (expectIdentifier due >>= k).result ts = (.ok named, rest)) :
    IsLabel named.1 := by
  obtain ⟨name, mid, hname, h⟩ := exists_of_result_bind h
  obtain ⟨t, rfl, hkind, rfl⟩ := exists_cons_of_result_expectIdentifier hname
  rw [hk _ _ _ _ h]
  exact hw t List.mem_cons_self (List.mem_cons.mpr (.inl hkind))

lemma isLabel_of_blockProperty {result : String}
    {named : String × String × Bool} {ts rest : List Token} (hw : Worded ts)
    (h : (blockProperty result).result ts = (.ok named, rest)) :
    IsLabel named.1 := by
  have hdrop : Worded (ts.drop 2) := fun t ht => hw t (List.mem_of_mem_drop ht)
  rw [blockProperty, result_bind_of_ok (result_skip _ _),
    result_bind_of_ok (result_look _ _),
    result_bind_of_ok (result_look _ _)] at h
  split at h
  · rw [result_bind_of_ok (result_skip _ _)] at h
    refine isLabel_of_expectIdentifier (fun name => ?_)
      (hdrop.of_reaches (reaches_step _)) h
    exact Yields.bind fun _ => Yields.bind fun _ =>
      Yields.ite (Yields.bind fun _ => yields_pure rfl)
        (Yields.bind fun _ => yields_pure rfl)
  · refine isLabel_of_expectIdentifier (fun name => ?_) hdrop h
    exact Yields.bind fun _ => Yields.bind fun _ =>
      Yields.ite (Yields.bind fun _ => yields_pure rfl)
        (Yields.bind fun _ => yields_pure rfl)

lemma isLabel_of_propertyNameAndType {named : String × String × Bool}
    {ts rest : List Token} (hw : Worded ts)
    (h : propertyNameAndType.result ts = (.ok named, rest)) :
    IsLabel named.1 := by
  rw [propertyNameAndType, result_bind_of_ok (result_scan _ _),
    result_bind_of_ok (result_look _ _)] at h
  have hrow := hw.of_reaches (reaches_typeText ts)
  split at h
  · exact isLabel_of_blockProperty hrow h
  · exact isLabel_of_expectIdentifier (fun _ => yields_pure rfl) hrow h

/-- A property that is read of a worded row is well formed. -/
theorem isWellFormed_of_propertyBody {inScope : Bool} {p : Property}
    {ts rest : List Token} (hw : Worded ts)
    (h : (propertyBody inScope).result ts = (.ok p, rest)) :
    p.IsWellFormed := by
  obtain ⟨row, mid, marked, hattributes, hnamed⟩ := exists_of_propertyBody h
  have hrow := hw.of_reaches (onward_propertyAttributes.reaches hattributes)
  exact ⟨isLabel_of_propertyNameAndType hrow hnamed,
    (yields_propertyBody inScope _ _ _ h).2.1⟩

/-! ### Containers -/

/-- What holds of each item that is read, and of the reports of failures,
holds of all items of a container. -/
lemma forall_mem_readAll {σ α : Type} {stops : List TokenKind}
    {one : σ → List Token → Reading σ α} {report : Failure → α}
    {remark? : α → Option Diagnostic} {P : α → Prop}
    (hread : AllOrderly stops one remark?)
    (hone : ∀ s t ts, Worded (t :: ts) → ∀ a ∈ (one s (t :: ts)).items, P a)
    (hreport : ∀ f, P (report f)) (s : σ) {ts : List Token}
    (hw : Worded ts) : ∀ a ∈ (readAll stops one report s ts).1, P a := by
  intro a ha
  rw [readAll_fst, List.mem_flatMap] at ha
  obtain ⟨⟨s', place⟩, hplace, hmem⟩ := ha
  obtain ⟨hreach, hend, -⟩ := hread.reaches_place _ _ hplace
  obtain ⟨t, rest, rfl, -⟩ := exists_cons_of_atEnd_eq_false hend
  rcases List.mem_append.mp hmem with hmem | hmem
  · exact hone s' t rest (hw.of_reaches hreach) a hmem
  · obtain ⟨f, -, rfl⟩ :=
      Option.map_eq_some_iff.mp (Option.mem_toList.mp hmem)
    exact hreport f

/-- A member of a class, as a part of it, is well formed and not
optional. -/
def ClassPart.IsWellFormed : ClassPart → Prop
  | property p => p.IsWellFormed ∧ p.optional = false
  | instanceMethod m => m.IsWellFormed ∧ m.optional = false
  | classMethod m => m.IsWellFormed ∧ m.optional = false
  | _ => True

/-- A member of a protocol, as a part of it, is well formed. -/
def ProtocolPart.IsWellFormed : ProtocolPart → Prop
  | property p => p.IsWellFormed
  | instanceMethod m => m.IsWellFormed
  | classMethod m => m.IsWellFormed
  | item _ => True

/-- The members of a class are well formed, and none is optional. -/
structure Interface.IsWellFormed (i : Interface) : Prop where
  methods : ∀ onClass, ∀ m ∈ i.methods onClass,
    m.IsWellFormed ∧ m.optional = false
  properties : ∀ p ∈ i.properties, p.IsWellFormed ∧ p.optional = false

/-- The members of a protocol are well formed, and the methods are as
optional as their list. -/
structure Protocol.IsWellFormed (p : Protocol) : Prop where
  methods : ∀ optional onClass, ∀ m ∈ p.methods optional onClass,
    m.IsWellFormed ∧ m.optional = optional
  properties : ∀ q ∈ p.properties, q.IsWellFormed

/-- A class or a protocol, as a declaration, is well formed. -/
def Item.IsWellFormed : Item → Prop
  | interface i => i.IsWellFormed
  | proto p => p.IsWellFormed
  | _ => True

lemma isWellFormed_readClassPart (s : Bool) (t : Token) (ts : List Token)
    (hw : Worded (t :: ts)) :
    ∀ part ∈ (readClassPart s (t :: ts)).items, part.IsWellFormed := by
  have htail : Worded ts := fun u hu => hw u (List.mem_cons_of_mem t hu)
  intro part hpart
  rcases mem_readClassPart hpart with ⟨-, p, rest, hp, rfl⟩
    | ⟨onClass, m, rest, -, hm, rfl⟩ | rfl
  · exact ⟨isWellFormed_of_propertyBody htail hp,
      (yields_propertyBody s _ _ _ hp).2.2⟩
  · have hmethod : m.IsWellFormed ∧ m.optional = false :=
      ⟨isWellFormed_of_methodBody htail hm,
        (yields_methodBody s _ _ _ hm).2.2⟩
    cases onClass <;> exact hmethod
  · trivial

lemma isWellFormed_ofParts {head : Interface} {parts : List ClassPart}
    (h : ∀ part ∈ parts, part.IsWellFormed) :
    (head.ofParts parts).IsWellFormed where
  methods := by
    intro onClass m hm
    have hpart := h _ (Interface.methods_ofParts head parts onClass hm)
    cases onClass <;> exact hpart
  properties := fun p hp =>
    h _ (Interface.properties_ofParts head parts hp)

/-- The one part that a production is read as. -/
lemma exists_of_mem_partReading {p : Production ProtocolPart}
    {s : ProtocolState} {ts : List Token} {part : ProtocolPart}
    (h : part ∈ (partReading p s ts).items) :
    ∃ rest, p.result ts = (.ok part, rest) := by
  rcases hres : p.result ts with ⟨f | a, rest⟩
  · have hfail : (do return [← p] : Production (List ProtocolPart)).result ts
        = (.error f, rest) := by
      rw [result_bind, hres]
    rw [partReading, reading_of_error s hfail] at h
    exact absurd h List.not_mem_nil
  · have hone : (do return [← p] : Production (List ProtocolPart)).result ts
        = (.ok [a], rest) := by
      rw [result_bind_of_ok hres, result_pure]
    rw [partReading, reading_of_ok s hone] at h
    exact ⟨rest, by rw [List.mem_singleton.mp h]⟩

lemma isWellFormed_withOptional {m : Method} (h : m.IsWellFormed)
    (optional : Bool) : { m with optional }.IsWellFormed :=
  ⟨h.arity, h.spelled, h.returnNullable, h.nullable⟩

lemma isWellFormed_readProtocolPart (s : ProtocolState) (t : Token)
    (ts : List Token) (hw : Worded (t :: ts)) :
    ∀ part ∈ (readProtocolPart s (t :: ts)).items, part.IsWellFormed := by
  have htail : Worded ts := fun u hu => hw u (List.mem_cons_of_mem t hu)
  have hmethod : ∀ {f : Method → ProtocolPart} {part : ProtocolPart},
      (∀ m : Method, m.IsWellFormed → (f m).IsWellFormed) →
      part ∈ (partReading (do
        let m ← methodBody s.inScope
        return f { m with optional := s.optional }) s ts).items →
      part.IsWellFormed := by
    intro f part hf hpart
    obtain ⟨rest, hres⟩ := exists_of_mem_partReading hpart
    obtain ⟨m, mid, hm, hres⟩ := exists_of_result_bind hres
    rw [← (eq_of_result_pure hres).1]
    exact hf _ (isWellFormed_withOptional
      (isWellFormed_of_methodBody htail hm) s.optional)
  intro part hpart
  rw [readProtocolPart] at hpart
  split at hpart
  · exact absurd hpart List.not_mem_nil
  · exact absurd hpart List.not_mem_nil
  · obtain ⟨rest, hres⟩ := exists_of_mem_partReading hpart
    obtain ⟨p, mid, hp, hres⟩ := exists_of_result_bind hres
    rw [← (eq_of_result_pure hres).1]
    have hproperty := isWellFormed_of_propertyBody htail hp
    exact ⟨hproperty.spelled, hproperty.nullable⟩
  · exact hmethod (f := .instanceMethod) (fun _ h => h) hpart
  · exact hmethod (f := .classMethod) (fun _ h => h) hpart
  · obtain ⟨i, -, rfl⟩ := List.mem_map.mp hpart
    trivial
  · exact absurd hpart List.not_mem_nil

lemma Protocol.methods_ofParts (head : Protocol)
    (parts : List ProtocolPart) {optional onClass : Bool} {m : Method}
    (h : m ∈ (head.ofParts parts).methods optional onClass) :
    protocolMethod onClass m ∈ parts ∧ m.optional = optional := by
  cases optional <;> cases onClass <;>
    obtain ⟨part, hpart, hm⟩ := List.mem_filterMap.mp h <;>
    cases part <;>
    simp [ProtocolPart.instanceMethod?, ProtocolPart.classMethod?] at hm <;>
    obtain ⟨hoptional, rfl⟩ := hm <;>
    exact ⟨hpart, hoptional⟩

lemma isWellFormed_protocol {head : Protocol} {parts : List ProtocolPart}
    (h : ∀ part ∈ parts, part.IsWellFormed) :
    (head.ofParts parts).IsWellFormed where
  methods := by
    intro optional onClass m hm
    obtain ⟨hpart, hoptional⟩ := Protocol.methods_ofParts head parts hm
    have hmethod := h _ hpart
    refine ⟨?_, hoptional⟩
    cases onClass <;> exact hmethod
  properties := by
    intro p hp
    obtain ⟨part, hpart, hp⟩ := List.mem_filterMap.mp hp
    cases part with
    | property p' => exact Option.some.inj hp ▸ h _ hpart
    | _ => cases hp

/-! ### Headers -/

/-- What is no class and no protocol is well formed. -/
lemma isWellFormed_of_none {item : Item} (hclass : item.interface? = none)
    (hproto : item.proto? = none) : item.IsWellFormed := by
  cases item with
  | interface => cases hclass
  | proto => cases hproto
  | _ => trivial

lemma isWellFormed_readItem (s : Bool) (t : Token) (ts : List Token)
    (hw : Worded (t :: ts)) :
    ∀ item ∈ (readItem s (t :: ts)).items, item.IsWellFormed := by
  have htail : Worded ts := fun u hu => hw u (List.mem_cons_of_mem t hu)
  cases itemRead s t ts with
  | @interface head start _ hstart hread _ =>
      have hreport : ∀ f, (ClassPart.ofFailure f).IsWellFormed :=
        fun _ => trivial
      have hparts := forall_mem_readAll allOrderly_readClassPart
        isWellFormed_readClassPart hreport s (htail.of_reaches hstart)
      rw [hread, items_closeContainer, classItems]
      refine List.forall_mem_cons.mpr ⟨isWellFormed_ofParts hparts, ?_⟩
      exact List.forall_mem_map.mpr fun _ _ => trivial
  | @proto name us start inherited _ hts _ hstart hread _ =>
      subst hts
      have hbehind : Worded us :=
        fun u hu => htail u (List.mem_cons_of_mem name hu)
      have hreport : ∀ f, (ProtocolPart.ofFailure f).IsWellFormed :=
        fun _ => trivial
      have hparts := forall_mem_readAll allOrderly_readProtocolPart
        isWellFormed_readProtocolPart hreport { inScope := s }
        (hbehind.of_reaches hstart)
      rw [hread, items_closeContainer, protocolItems]
      refine List.forall_mem_cons.mpr ⟨isWellFormed_protocol hparts, ?_⟩
      intro item hitem
      obtain ⟨hclass, hproto⟩ := item?_protocolParts hitem
      exact isWellFormed_of_none hclass hproto
  | plain hclass hproto _ _ =>
      exact fun item hitem => isWellFormed_of_none
        (List.filterMap_eq_nil_iff.mp hclass item hitem)
        (List.filterMap_eq_nil_iff.mp hproto item hitem)

/-- All declarations of a header are well formed. -/
lemma isWellFormed_readItems (rules : MacroRules) (text : String) :
    ∀ item ∈ readItems (closeTokens (tokenize rules text)),
      item.IsWellFormed := by
  rw [(endsOnce_tokenize rules text).closeTokens_eq]
  have hreport : ∀ f, (Item.ofFailure f).IsWellFormed := fun _ => trivial
  exact forall_mem_readAll allOrderly_readItem isWellFormed_readItem hreport
    false (worded_tokenize rules text)

lemma isWellFormed_of_mem_interfaces {rules : MacroRules}
    {file text : String} {i : Interface}
    (h : i ∈ (readHeader rules file text).interfaces) : i.IsWellFormed := by
  obtain ⟨item, hitem, hi⟩ := List.mem_filterMap.mp h
  have hwell := isWellFormed_readItems rules text item hitem
  cases item with
  | interface i' => exact Option.some.inj hi ▸ hwell
  | _ => cases hi

lemma isWellFormed_of_mem_protocols {rules : MacroRules}
    {file text : String} {p : Protocol}
    (h : p ∈ (readHeader rules file text).protocols) : p.IsWellFormed := by
  obtain ⟨item, hitem, hp⟩ := List.mem_filterMap.mp h
  have hwell := isWellFormed_readItems rules text item hitem
  cases item with
  | proto p' => exact Option.some.inj hp ▸ hwell
  | _ => cases hp

/-- Whatever is read of a text, remarks or not, the members of its classes
and protocols are well formed.  Those of classes are not optional, and the
methods of protocols are as optional as the list that they stand in. -/
theorem members_isWellFormed (rules : MacroRules) (file text : String) :
    (∀ i ∈ (readHeader rules file text).interfaces,
        (∀ onClass, ∀ m ∈ i.methods onClass,
          m.IsWellFormed ∧ m.optional = false)
        ∧ ∀ p ∈ i.properties, p.IsWellFormed ∧ p.optional = false)
      ∧ ∀ p ∈ (readHeader rules file text).protocols,
        (∀ optional onClass, ∀ m ∈ p.methods optional onClass,
          m.IsWellFormed ∧ m.optional = optional)
        ∧ ∀ q ∈ p.properties, q.IsWellFormed := by
  constructor
  · intro i hi
    have h := isWellFormed_of_mem_interfaces hi
    exact ⟨h.methods, h.properties⟩
  · intro p hp
    have h := isWellFormed_of_mem_protocols hp
    exact ⟨h.methods, h.properties⟩

/-- A class with a method whose further segment has no label and whose
arguments go on, and a protocol with an optional method; a method that
breaks off in between is remarked on. -/
def pairText : String :=
  "\n".intercalate ["@interface Pair",
    "- (nullable id)first:(id)a :(id _Nullable)b, ...;", "- (id);",
    "@property (copy) NSString *_Nullable name;", "@end",
    "@protocol Paired", "@optional", "+ (void)join:(id)a with:(id)b;",
    "@end"]

/-- Both parameters belong to the selector, and the open tail to none. -/
theorem members_isWellFormed_pair :
    (readHeader {} "" pairText).diagnostics ≠ []
      ∧ ((readHeader {} "" pairText).interfaces.map fun i =>
          (i.methods false).map fun m => (m.selector, m.parameters.length))
        = [[("first::", 2)]]
      ∧ ((readHeader {} "" pairText).protocols.map fun p =>
          (p.methods true true).map (·.selector)) = [["join:with:"]]
      ∧ (∀ i ∈ (readHeader {} "" pairText).interfaces,
        (∀ onClass, ∀ m ∈ i.methods onClass,
          m.IsWellFormed ∧ m.optional = false)
        ∧ ∀ p ∈ i.properties, p.IsWellFormed ∧ p.optional = false)
      ∧ ∀ p ∈ (readHeader {} "" pairText).protocols,
        (∀ optional onClass, ∀ m ∈ p.methods optional onClass,
          m.IsWellFormed ∧ m.optional = optional)
        ∧ ∀ q ∈ p.properties, q.IsWellFormed := by
  -- one computation, in which the text is read only once
  have hread : (readHeader {} "" pairText).diagnostics ≠ []
      ∧ ((readHeader {} "" pairText).interfaces.map fun i =>
          (i.methods false).map fun m => (m.selector, m.parameters.length))
        = [[("first::", 2)]]
      ∧ ((readHeader {} "" pairText).protocols.map fun p =>
          (p.methods true true).map (·.selector)) = [["join:with:"]] := by
    rw [pairText, readHeader, tokenize_intercalate]
    decide +kernel
  exact ⟨hread.1, hread.2.1, hread.2.2, members_isWellFormed {} "" pairText⟩

end HeaderBinding
