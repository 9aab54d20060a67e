/-
Members of a class, written out as its header declares them, are read
again.

* `readItems_class`: a class with one member;
* `Method.ReadAgain`, `Property.ReadAgain`: the description of the member,
  alone in a class, is read as that member without a remark;
* `Method.Writable`, `Property.Writable`: the texts of members that can be
  written out;
* `members_read_again`: all such members are read again.
-/
import HeaderBinding.Proofs.Header.Origin

namespace HeaderBinding

open Production

variable {rules : MacroRules}

/-! ### A class with one member -/

/-- A class with the member and nothing else. -/
def classText (name member : String) : String :=
  "@interface " ++ name ++ "\n" ++ member ++ "\n@end\n"

/-- The kinds that the declaration of a member begins with. -/
def memberMarks : List TokenKind :=
  [.atProperty, .minus, .plus]

lemma result_interfaceHead {name t : Token} {ts : List Token}
    (hname : name.kind = .identifier) (ht : t.kind ∈ memberMarks) :
    interfaceHead.result (name :: t :: ts)
      = (.ok { name := name.value }, t :: ts) := by
  have hnot : ∀ kind, kind ∉ memberMarks → headIs kind (t :: ts) = false := by
    intro kind hk
    simp only [headIs, List.head?_cons, Option.any_some,
      decide_eq_false_iff_not]
    rintro rfl
    exact hk ht
  have hword : (expectIdentifier .interfaceName).result (name :: t :: ts)
      = (.ok name.value, t :: ts) := by
    rw [expectIdentifier,
      result_bind_of_ok (result_expect_cons hname (by decide) _ _),
      result_pure]
  have hskip : skipTypeParameters (t :: ts) = t :: ts := by
    rw [skipTypeParameters, hnot _ (by decide)]
    rfl
  have haccept : ∀ kind, kind ∉ memberMarks →
      (accept kind).result (t :: ts) = (.ok false, t :: ts) :=
    fun kind hk => result_accept_of_not_headIs (hnot kind hk)
  have hcategory : categoryName.result (t :: ts) = (.ok none, t :: ts) := by
    rw [categoryName, result_bind_of_ok (haccept _ (by decide)),
      if_neg Bool.false_ne_true, result_pure]
  have hsuperclass : superclassName.result (t :: ts)
      = (.ok none, t :: ts) := by
    rw [superclassName, result_bind_of_ok (haccept _ (by decide)),
      if_neg Bool.false_ne_true, result_pure]
  have hprotocols : (protocolNames .protocolsClose).result (t :: ts)
      = (.ok [], t :: ts) := by
    rw [protocolNames, result_bind_of_ok (haccept _ (by decide)),
      if_neg Bool.false_ne_true, result_pure]
  rw [interfaceHead, result_bind_of_ok hword,
    result_bind_of_ok (result_skip _ _), hskip, result_bind_of_ok hcategory,
    result_bind_of_ok hsuperclass, result_bind_of_ok hprotocols,
    result_bind_of_ok (haccept _ (by decide)), if_neg Bool.false_ne_true]
  rfl

/-- The items of a class with one member. -/
lemma readItems_class {k name t e z : Token} {ts : List Token}
    {part : ClassPart} (hk : k.kind = .atInterface)
    (hname : name.kind = .identifier) (ht : t.kind ∈ memberMarks)
    (hpart : readClassPart false (t :: ts) = ⟨[part], false, [e, z], none⟩)
    (hremark : part.remark? = none) (he : e.kind = .atEnd)
    (hz : z.kind = .endOfInput) :
    readItems (k :: name :: t :: ts)
      = [.interface (Interface.ofParts { name := name.value } [part])] := by
  have hend : atEnd (t :: ts) = false := by
    rw [atEnd_cons_eq_false]
    intro hte
    rw [hte] at ht
    exact absurd ht (by decide)
  have hstop : headIn bodyStops (t :: ts) = false := by
    simp only [memberMarks, List.mem_cons, List.not_mem_nil, or_false] at ht
    rcases ht with ht | ht | ht <;> simp [bodyStops, ht]
  have hlt : [e, z].length < (t :: ts).length := by
    have hmoves := (allOrderly_readClassPart false (t :: ts) hend hstop).moves
    rw [hpart] at hmoves
    exact hmoves rfl
  have hbody : readAll bodyStops readClassPart ClassPart.ofFailure false
      (t :: ts) = ([part], false, [e, z]) :=
    readAll_one hend hstop hpart hlt (.inr (by simp [bodyStops, he]))
  have hclass : readInterface false (name :: t :: ts)
      = ⟨[.interface (Interface.ofParts { name := name.value } [part])],
        false, [z], none⟩ := by
    rw [readInterface_of_ok (result_interfaceHead hname ht)]
    simp only [hbody]
    rw [closeContainer_of_ok (result_expect_cons he (by decide) _ _),
      classItems, List.filterMap_cons_none hremark]
    rfl
  have hitem : readItem false (k :: name :: t :: ts)
      = ⟨[.interface (Interface.ofParts { name := name.value } [part])],
        false, [z], none⟩ := by
    rw [← hclass, readItem, hk]
  rw [readItems, readAll_one (by simp [hk]) (not_headIn_nil _) hitem
    (by simp) (.inl (by simp [hz]))]

/-- A keyword behind an at sign can be read again. -/
lemma readable_atKeyword (c : Char) (cs : List Char) {kind : TokenKind}
    (hc : isNameStart c = true) (hw : cs.Forall (isWordChar · = true))
    (hk : atKeyword? (String.ofList (c :: cs)) = some kind) :
    Readable rules (kind, String.ofList ('@' :: c :: cs)) := by
  have hshape : Shape rules _ ('@' :: c :: cs) :=
    .marked hc (List.forall_iff_forall_mem.mp hw)
  rw [hk] at hshape
  show Shape rules kind (String.ofList ('@' :: c :: cs)).toList
  rwa [String.toList_ofList]

/-- What stands behind the member of a class. -/
def classEnd : List Char :=
  '\n' :: ("@end".toList ++ ['\n'])

lemma exists_of_classEnd {ts : List Token}
    (h : ts.map Token.face = rowOf rules classEnd) :
    ∃ e z, ts = [e, z] ∧ e.kind = .atEnd ∧ z.kind = .endOfInput := by
  have hend : Readable rules (.atEnd, "@end") :=
    readable_atKeyword 'e' ['n', 'd'] (by decide) (by decide) (by decide)
  rw [classEnd, rowOf_blank (by decide)] at h
  obtain ⟨e, us, rfl, he, hus⟩ :=
    exists_cons_of_readable hend (endsToken_cons (by decide) _) h
  rw [rowOf_blank (by decide), rowOf, facesOf, lexemes] at hus
  obtain ⟨z, vs, rfl, hz, hvs⟩ := List.map_eq_cons_iff.mp hus
  rw [List.map_eq_nil_iff.mp hvs]
  exact ⟨e, z, rfl, congrArg Prod.fst he, congrArg Prod.fst hz⟩

/-- A class whose member is read as a part, and nothing else. -/
lemma readHeader_class {name member : String} {part : ClassPart}
    (hname : Readable rules (.identifier, name)) (file : String)
    (hpart : ∀ ts, ts.map Token.face = rowOf rules (member.toList ++ classEnd) →
      ∃ t us rest, ts = t :: us ∧ t.kind ∈ memberMarks
        ∧ readClassPart false ts = ⟨[part], false, rest, none⟩
        ∧ rest.map Token.face = rowOf rules classEnd)
    (hremark : part.remark? = none) :
    readHeader rules file (classText name member)
      = Header.ofItems file
        [.interface (Interface.ofParts { name } [part])] := by
  have hclass : Readable rules (.atInterface, "@interface") :=
    readable_atKeyword 'i' ['n', 't', 'e', 'r', 'f', 'a', 'c', 'e']
      (by decide) (by decide) (by decide)
  have htext : (classText name member).toList
      = "@interface".toList ++ ' ' :: (name.toList
        ++ '\n' :: (member.toList ++ classEnd)) := by
    simp [classText, classEnd]
  have hrow := map_face_tokenize rules (classText name member)
  rw [← rowOf, htext] at hrow
  obtain ⟨k, us, hts, hk, hus⟩ :=
    exists_cons_of_readable hclass (endsToken_cons (by decide) _) hrow
  rw [rowOf_blank (by decide)] at hus
  obtain ⟨n, us, rfl, hn, hus⟩ :=
    exists_cons_of_readable hname (endsToken_cons (by decide) _) hus
  rw [rowOf_blank (by decide)] at hus
  obtain ⟨t, us, rest, rfl, ht, hread, hrest⟩ := hpart us hus
  obtain ⟨e, z, rfl, he, hz⟩ := exists_of_classEnd hrest
  have hvalue : n.value = name := congrArg Prod.snd hn
  rw [readHeader, readTokens, (endsOnce_tokenize rules _).closeTokens_eq, hts,
    readItems_class (congrArg Prod.fst hk) (congrArg Prod.fst hn) ht hread
      hremark he hz, hvalue]

/-! ### Members alone in a class -/

/-- Alone in a class and written out as its header declares it, the method
is read again, and nothing else. -/
def Method.ReadAgain (rules : MacroRules) (onClass : Bool) (m : Method) :
    Prop :=
  ∀ file name, IsName rules name →
    ∃ i m', (readHeader rules file
          (classText name (m.describe onClass))).diagnostics = []
      ∧ (readHeader rules file
          (classText name (m.describe onClass))).interfaces = [i]
      ∧ i.properties = [] ∧ i.methods (!onClass) = []
      ∧ i.methods onClass = [m']
      ∧ m'.selector = m.selector ∧ m'.returnType = m.returnType
      ∧ m'.parameters = m.parameters

/-- Alone in a class and written out as its header declares it, the
property is read again, and nothing else. -/
def Property.ReadAgain (rules : MacroRules) (p : Property) : Prop :=
  ∀ file name, IsName rules name →
    ∃ i p', (readHeader rules file
          (classText name p.describe)).diagnostics = []
      ∧ (readHeader rules file (classText name p.describe)).interfaces = [i]
      ∧ i.instanceMethods = [] ∧ i.classMethods = []
      ∧ i.properties = [p']
      ∧ p'.name = p.name ∧ p'.type = p.type
      ∧ p'.attributes = p.attributes

lemma SelectorReads.readAgain {m : Method} {cs : List Char}
    (h : SelectorReads rules m.selector m.parameters cs)
    (htype : TypeReads rules m.returnType) (onClass : Bool) :
    m.ReadAgain rules onClass := by
  intro file name hname
  have hpart : ∀ ts, ts.map Token.face
        = rowOf rules ((m.describe onClass).toList ++ classEnd) →
      ∃ t us rest, ts = t :: us ∧ t.kind ∈ memberMarks
        ∧ readClassPart false ts = ⟨[methodPart onClass
          (plainMethod false m.selector m.returnType m.parameters)],
          false, rest, none⟩
        ∧ rest.map Token.face = rowOf rules classEnd := by
    intro ts hts
    rw [toList_describe_method h, List.cons_append] at hts
    obtain ⟨t, us, rfl, ht, hus⟩ :=
      exists_cons_of_mark (by cases onClass <;> decide) hts
    have hk : t.kind = signKind onClass := by
      rw [ht]
      cases onClass <;> rfl
    obtain ⟨rest, hrest, hrow⟩ :=
      readsText_methodBody h htype false classEnd us trivial hus
    refine ⟨t, us, rest, rfl, ?_, ?_, hrow⟩
    · rw [hk]
      cases onClass <;> decide
    · rw [readClassPart_of_sign false hk, reading_onePart hrest]
  rw [readHeader_class hname.readable file hpart (by cases onClass <;> rfl)]
  refine ⟨_, plainMethod false m.selector m.returnType m.parameters,
    rfl, rfl, ?_⟩
  cases onClass <;> exact ⟨rfl, rfl, rfl, rfl, rfl, rfl⟩

lemma PropertyTypeReads.readAgain {p : Property}
    (htype : PropertyTypeReads rules p.type p.name)
    (hname : Readable rules (.identifier, p.name))
    (hattributes : ∀ a ∈ p.attributes, AttributeForm rules a) :
    p.ReadAgain rules := by
  intro file name hclass
  have hkeyword : Readable rules (.atProperty, "@property") :=
    readable_atKeyword 'p' ['r', 'o', 'p', 'e', 'r', 't', 'y']
      (by decide) (by decide) (by decide)
  have hends : EndsToken
      (printedProperty p.name p.type p.attributes ++ classEnd) := by
    rw [printedProperty]
    cases p.attributes <;> exact endsToken_cons (by decide) _
  have hpart : ∀ ts, ts.map Token.face
        = rowOf rules (p.describe.toList ++ classEnd) →
      ∃ t us rest, ts = t :: us ∧ t.kind ∈ memberMarks
        ∧ readClassPart false ts = ⟨[.property
          (plainProperty false p.name p.type p.attributes)],
          false, rest, none⟩
        ∧ rest.map Token.face = rowOf rules classEnd := by
    intro ts hts
    rw [toList_describe_property, List.append_assoc] at hts
    obtain ⟨t, us, rfl, ht, hus⟩ :=
      exists_cons_of_readable hkeyword hends hts
    have hk : t.kind = .atProperty := congrArg Prod.fst ht
    obtain ⟨rest, hrest, hrow⟩ := readsText_propertyBody htype hname
      hattributes false classEnd us trivial hus
    refine ⟨t, us, rest, rfl, by rw [hk]; decide, ?_, hrow⟩
    rw [readClassPart_of_atProperty false hk, reading_onePart hrest]
  rw [readHeader_class hclass.readable file hpart rfl]
  exact ⟨_, plainProperty false p.name p.type p.attributes,
    rfl, rfl, rfl, rfl, rfl, rfl, rfl, rfl⟩

/-! ### All members -/

/-- The text of the method can be written out: its tokens are plain, as all
but those of its types are anyway, its parameters have names and its
selector has no empty segment. -/
structure Method.Writable (m : Method) (span : List Token) : Prop where
  plain : ∀ t ∈ span, t.face.Plain
  names : ∀ p ∈ m.parameters, p.name ≠ ""
  labels : HasLabels m.selector

/-- The text of the property can be written out: the tokens of its type
are plain and open no parenthesis, and its attributes have one of their
forms. -/
structure Property.Writable (rules : MacroRules) (p : Property)
    (type : List Token) : Prop where
  plain : ∀ t ∈ type, t.face.Plain
  noParen : '(' ∉ p.type.toList
  attributes : ∀ a ∈ p.attributes, AttributeForm rules a

/-- Neither the method nor a parameter has the type `id`, which also stands
for a type that is missing. -/
def Method.WithoutId (m : Method) : Prop :=
  m.returnType ≠ "id" ∧ ∀ p ∈ m.parameters, p.type ≠ "id"

lemma Method.ReadFrom.readAgain {text : String} {m : Method}
    {onClass : Bool} {span : List Token}
    (h : m.ReadFrom (tokenize rules text) onClass span)
    (hw : m.Writable span) (hid : "id" ∈ rules.skipNames → m.WithoutId) :
    m.ReadAgain rules onClass := by
  obtain ⟨before, sign, after, inScope, hts, -, hread⟩ := h
  have hpassed := passed_of_mem_tokenize
    ((onward_methodBody inScope).reaches hread)
    (fun t ht => by rw [hts]; simp [ht]) hw.plain
  obtain ⟨htype, hselector⟩ := selectorRead_of_methodBody hread hpassed
  -- labels and names are there, so the selector was read without gaps
  obtain ⟨cs, hcs⟩ := hselector.exists_reads hw.labels hw.names
    fun p hp htext hskip => (hid hskip).2 p hp htext
  exact hcs.readAgain
    (htype.reads fun htext hskip => (hid hskip).1 htext) onClass

lemma Property.ReadFrom.readAgain {text : String} {p : Property}
    {type : List Token} (h : p.ReadFrom (tokenize rules text) type)
    (hw : p.Writable rules type) : p.ReadAgain rules := by
  obtain ⟨before, keyword, attributes, row, rest, inScope, hts, -, hread,
    hrow, htype⟩ := h
  obtain ⟨row', mid, marked, hrow', hname⟩ := exists_of_propertyBody hread
  obtain rfl : row' = type ++ row :=
    (Prod.mk.inj (hrow'.symm.trans hrow)).2
  obtain ⟨hptype, t, ht, hk, hvalue⟩ :=
    exists_of_propertyNameAndType hname hw.noParen
  -- the type stops where the name stands
  obtain rfl := htype.symm.trans ht
  have hreach : Reaches (type ++ t :: mid) (t :: mid) := by
    conv => rhs; rw [← htype]
    exact reaches_typeText _
  have htread : Readable rules (.identifier, t.value) :=
    readable_of_identifier (by rw [hts]; simp) hk
  have hall : ∀ u ∈ type, Readable rules u.face := fun u hu =>
    readable_of_mem_tokenize (by rw [hts]; simp [hu])
      (hreach.forall_ne u hu) (hw.plain u hu)
  have hreads := propertyTypeReads_of_typeText htype hk hall
    (by rw [Token.face, hk]; exact htread)
  rw [← hptype, hvalue] at hreads
  exact hreads.readAgain (hvalue ▸ htread) hw.attributes

/-- The members of a class are each read of tokens of the text; and those
whose text can be written out are read again alone in a class, as the name
of which that of their own class will do.  Where `id` is left out as a
macro, it must not be a type of the method. -/
theorem members_read_again {file text : String} {i : Interface}
    (hi : i ∈ (readHeader rules file text).interfaces) :
    IsName rules i.name
      ∧ (∀ onClass, ∀ m ∈ i.methods onClass,
        (∃ span, m.ReadFrom (tokenize rules text) onClass span)
          ∧ ∀ span, m.ReadFrom (tokenize rules text) onClass span →
            m.Writable span → ("id" ∈ rules.skipNames → m.WithoutId) →
            m.ReadAgain rules onClass)
      ∧ ∀ p ∈ i.properties,
        (∃ type, p.ReadFrom (tokenize rules text) type)
          ∧ ∀ type, p.ReadFrom (tokenize rules text) type →
            p.Writable rules type → p.ReadAgain rules := by
  refine ⟨?_, fun onClass m hm => ⟨exists_readFrom_of_mem_methods hi hm,
      fun span h hw hid => h.readAgain hw hid⟩,
    fun p hp => ⟨exists_readFrom_of_mem_properties hi hp,
      fun type h hw => h.readAgain hw⟩⟩
  obtain ⟨head, name, us, s, row, hreach, hk, hvalue, -, -⟩ :=
    exists_body_of_mem_interfaces hi
  have hname : Readable rules (.identifier, name.value) :=
    readable_of_identifier (hreach.suffix.subset List.mem_cons_self) hk
  rw [hvalue]
  exact hname.readAlone

/-- In a text of plain tokens all methods with names and labels can be
written out. -/
lemma Method.ReadFrom.writable {m : Method} {ts span : List Token}
    {onClass : Bool} (h : m.ReadFrom ts onClass span)
    (hplain : ∀ t ∈ ts, t.face.Plain)
    (hnames : ∀ p ∈ m.parameters, p.name ≠ "")
    (hlabels : HasLabels m.selector) : m.Writable span := by
  obtain ⟨before, sign, after, inScope, rfl, -⟩ := h
  exact ⟨fun t ht => hplain t (by simp [ht]), hnames, hlabels⟩

lemma Property.ReadFrom.writable {p : Property} {ts type : List Token}
    (h : p.ReadFrom ts type) (hplain : ∀ t ∈ ts, t.face.Plain)
    (hparen : '(' ∉ p.type.toList)
    (hattributes : ∀ a ∈ p.attributes, AttributeForm rules a) :
    p.Writable rules type := by
  obtain ⟨before, keyword, attributes, row, rest, inScope, rfl, -⟩ := h
  exact ⟨fun t ht => hplain t (by simp [ht]), hparen, hattributes⟩

/-- A method and a property of a small class. -/
theorem members_read_again_cart :
    ∃ i ∈ (readHeader {} "" "@interface Cart
+ (id<Set>)find:(int *)n;
@property (get=isOpen) Map<id> *open;
@end\n").interfaces,
      (∃ m ∈ i.methods true, m.ReadAgain {} true)
        ∧ ∃ p ∈ i.properties, p.ReadAgain {} := by
  let find : Method := {
    selector := "find:", returnType := "id<Set>"
    parameters := [⟨"n", "int *", false⟩] }
  let isOpen : Property := {
    name := "open", type := "Map<id> *", attributes := ["get=isOpen"] }
  let text := "@interface Cart
+ (id<Set>)find:(int *)n;
@property (get=isOpen) Map<id> *open;
@end\n"
  have hi : { name := "Cart", classMethods := [find], properties := [isOpen] }
      ∈ (readHeader {} "" text).interfaces := by decide +kernel
  have hplain : ∀ t ∈ tokenize {} text, t.face.Plain := by decide +kernel
  have hattributes : ∀ a ∈ isOpen.attributes, AttributeForm {} a := by
    intro a ha
    have hform : AttributeForm {} ("get" ++ "=" ++ "isOpen") :=
      .value (.inl (by decide +kernel)) (by decide +kernel)
    rwa [List.mem_singleton.mp ha]
  obtain ⟨-, hmethods, hproperties⟩ := members_read_again hi
  obtain ⟨⟨span, hspan⟩, hmethod⟩ := hmethods true find (by decide)
  obtain ⟨⟨type, htype⟩, hproperty⟩ := hproperties isOpen (by decide)
  have hfind : find.Writable span :=
    hspan.writable hplain (by decide) (by decide +kernel)
  exact ⟨_, hi,
    ⟨find, by decide, hmethod span hspan hfind fun h => nomatch h⟩,
    ⟨isOpen, by decide, hproperty type htype
      (htype.writable hplain (by decide) hattributes)⟩⟩

/-- The methods of the header whose text can be written out are read
again. -/
def MethodsReadAgain (rules : MacroRules) (file text : String) : Prop :=
  ∀ i ∈ (readHeader rules file text).interfaces, ∀ onClass,
    ∀ m ∈ i.methods onClass, ∀ span,
      m.ReadFrom (tokenize rules text) onClass span → m.Writable span →
        m.ReadAgain rules onClass

/-- A method without a type is written out with the type `id`, which is not
read again where it is left out as a macro. -/
theorem not_methodsReadAgain_of_missing_type :
    ¬ MethodsReadAgain { skipNames := ["id"] } ""
      "@interface A\n- foo;\n@end\n" := by
  intro h
  let foo : Method := { selector := "foo", returnType := "id" }
  have hi : { name := "A", instanceMethods := [foo] }
      ∈ (readHeader { skipNames := ["id"] } ""
        "@interface A\n- foo;\n@end\n").interfaces := by
    decide +kernel
  have hfoo : foo ∈ Interface.methods
      { name := "A", instanceMethods := [foo] } false := by decide
  obtain ⟨span, hspan⟩ := exists_readFrom_of_mem_methods hi hfoo
  obtain ⟨i, m, -, hclass, -, -, hmethods, -, htype, -⟩ := h _ hi false foo
    hfoo span hspan
    (hspan.writable (by decide +kernel) (by decide) (by decide +kernel))
    "" "A" (by decide +kernel)
  have hagain : (readHeader { skipNames := ["id"] } ""
      (classText "A" (foo.describe false))).interfaces
        = [{ name := "A", instanceMethods := [{ foo with returnType := "" }] }] := by
    decide +kernel
  rw [hagain] at hclass
  obtain rfl := List.singleton_inj.mp hclass
  obtain rfl := List.singleton_inj.mp hmethods
  exact absurd htype (by decide)

end HeaderBinding
