/-
Members that are written out as a header declares them are read again.

* `ParameterReads`, `SegmentReads`: a parameter and a segment of a selector
  whose texts are read as they stand;
* `SelectorReads`: the same for a method; `readsText_methodBody` reads its
  description behind the sign;
* `PropertyTypeReads`, `readsText_propertyBody`: the same for properties.
-/
import HeaderBinding.Binding.Property
import HeaderBinding.Proofs.Cursor.Printed

namespace HeaderBinding

open Production

variable {rules : MacroRules}

/-! ### Parameters -/

lemma readsText_parenthesizedType {text : String}
    (h : TypeReads rules text) (due : Expectation)
    (follow : List Char → Prop) :
    ReadsText rules (parenthesizedType due) ('(' :: (text.toList ++ [')']))
      text follow :=
  (readsText_accept (by decide) rfl fun _ => True).bind
    (.thenBranch rfl (h.bind (.behind_expect (by decide) rfl (by decide) .pure)
      fun _ _ => HeadIn.cons (by decide) _))
    fun _ _ => trivial

/-- The texts of the parameter are read as they stand. -/
structure ParameterReads (rules : MacroRules) (p : Parameter) : Prop where
  type : TypeReads rules p.type
  name : Readable rules (.identifier, p.name)
  nullable : p.nullable = typeIsNullable p.type

/-- A parameter of a method as it is written out. -/
def printedParameter (p : Parameter) : List Char :=
  '(' :: (p.type.toList ++ [')']) ++ p.name.toList

lemma readsText_methodParameter {p : Parameter}
    (h : ParameterReads rules p) :
    ReadsText rules methodParameter (printedParameter p) p
      (EndsToken) := by
  have hp : p = ⟨p.name, p.type, typeIsNullable p.type⟩ := by
    rw [← h.nullable]
  rw [hp]
  exact (readsText_parenthesizedType h.type _ fun _ => True).bind
    ((readsText_identifierOrEmpty h.name).map _) fun _ _ => trivial

/-! ### Segments -/

/-- The word labels a segment of a selector. -/
def LabelReads (rules : MacroRules) (label : String) : Prop :=
  ∃ kind, Readable rules (kind, label)
    ∧ ((kind = .identifier ∧ label ∉ methodMacros) ∨ kind ∈ labelKeywords)

lemma LabelReads.exists_cons {label : String} (h : LabelReads rules label)
    {cs : List Char} (hcs : EndsToken cs) {ts : List Token}
    (hts : ts.map Token.face = rowOf rules (label.toList ++ cs)) :
    ∃ t us, ts = t :: us ∧ t.value = label ∧ t.kind ≠ .endOfInput
      ∧ (∀ vs, startsLabel (t :: vs) = true)
      ∧ us.map Token.face = rowOf rules cs := by
  obtain ⟨kind, hread, hkind⟩ := h
  obtain ⟨t, us, rfl, ht, hus⟩ := exists_cons_of_readable hread hcs hts
  have hk : t.kind = kind := congrArg Prod.fst ht
  have hvalue : t.value = label := congrArg Prod.snd ht
  refine ⟨t, us, rfl, hvalue, ?_, fun vs => ?_, hus⟩
  · rintro hend
    rw [← hk, hend] at hkind
    exact hkind.elim (fun h => nomatch h.1) (absurd · (by decide))
  · rw [startsLabel_cons_iff, hk, hvalue]
    exact hkind

/-- The texts of the segment are read as they stand. -/
def SegmentReads (rules : MacroRules) (s : String × Parameter) : Prop :=
  LabelReads rules s.1 ∧ ParameterReads rules s.2

/-- A segment of a selector as it is written out. -/
def printedSegment (s : String × Parameter) : List Char :=
  s.1.toList ++ ':' :: printedParameter s.2

/-- A segment as it is read, with the colon behind its label. -/
def withColon (s : String × Parameter) : String × Parameter :=
  (s.1 ++ ":", s.2)

lemma readsText_furtherSegment {s : String × Parameter}
    (h : SegmentReads rules s) :
    ReadsText rules furtherSegment (' ' :: printedSegment s)
      (some (withColon s)) (EndsToken) := by
  refine .blank fun after ts hafter hts => ?_
  rw [printedSegment, List.append_assoc] at hts
  obtain ⟨t, us, rfl, hvalue, hend, hlabel, hus⟩ :=
    h.1.exists_cons (endsToken_cons (by decide) _) hts
  obtain ⟨c, us, rfl, hc, hus⟩ := exists_cons_of_mark (by decide) hus
  obtain ⟨rest, hrest, hrow⟩ :=
    readsText_methodParameter h.2 after us hafter hus
  refine ⟨rest, ?_, hrow⟩
  have hlook : (startsLabel (t :: c :: us)
      && decide (kindAt 1 (t :: c :: us) = .colon)) = true := by
    rw [hlabel, show kindAt 1 (t :: c :: us) = .colon from hc]
    rfl
  rw [furtherSegment, result_bind_of_ok (result_look _ _), if_pos hlook,
    result_bind_of_ok (result_advance _), result_bind_of_ok (result_skip _ _),
    step_cons hend, step_cons (by simp [hc, punctuationKind]),
    result_bind_of_ok hrest, result_pure, nextToken_cons, hvalue]
  rfl

/-- At the end of a declaration no segment follows. -/
lemma readsText_furtherSegment_none :
    ReadsText rules furtherSegment [] none (HeadIn [';']) := by
  refine .behind_look (a := false) (fun after ts hafter hts => ?_)
    (.elseBranch Bool.false_ne_true ?_)
  · obtain ⟨c, hc, t, us, rfl, ht⟩ :=
      exists_cons_of_mark_head (by decide) hafter hts
    rw [List.mem_singleton.mp hc] at ht
    simp [startsLabel, labelKeywords, ht, punctuationKind]
  · exact (readsText_accept_not (by decide)).bind
      (.elseBranch Bool.false_ne_true .pure) fun _ h => h

/-- The segments behind the first label, with its colon. -/
lemma readsText_selectorSegments {s : String × Parameter}
    {ss : List (String × Parameter)} (h : ParameterReads rules s.2)
    (hs : ∀ x ∈ ss, SegmentReads rules x) :
    ReadsText rules (selectorSegments s.1)
      (printedParameter s.2 ++ ss.flatMap (' ' :: printedSegment ·))
      ((s :: ss).map withColon) (HeadIn [';']) := by
  have hothers : ReadsText rules (repeated furtherSegment)
      (ss.flatMap (' ' :: printedSegment ·)) (ss.map withColon)
      (HeadIn [';']) :=
    readsText_repeated moves_furtherSegment readsText_furtherSegment_none
      (fun x hx => readsText_furtherSegment (hs x hx))
      (fun _ _ _ => endsToken_cons (by decide) _)
      fun _ h => h.endsToken (by decide)
  refine (readsText_methodParameter h).bind (hothers.bind_nil (.behind_look
    (a := false) ?_ (.elseBranch Bool.false_ne_true .pure))) ?_
  · intro after ts hafter hts
    obtain ⟨c, hc, t, us, rfl, ht⟩ :=
      exists_cons_of_mark_head (by decide) hafter hts
    rw [List.mem_singleton.mp hc] at ht
    simp [opensVariadicTail, ht, punctuationKind]
  · intro after hafter
    cases ss with
    | nil => exact hafter.endsToken (by decide)
    | cons x xs => exact endsToken_cons (by decide) _

/-! ### Methods -/

/-- The selector with the parameters is written out as the text, all of
which is read as it stands. -/
inductive SelectorReads (rules : MacroRules) :
    String → List Parameter → List Char → Prop
  | plain {label : String} (h : LabelReads rules label) :
      SelectorReads rules label [] label.toList
  | labelled {s : String × Parameter} {ss : List (String × Parameter)}
      (h : ∀ x ∈ s :: ss, SegmentReads rules x) :
      SelectorReads rules (String.join ((s :: ss).map (·.1 ++ ":")))
        ((s :: ss).map (·.2))
        (printedSegment s ++ ss.flatMap (' ' :: printedSegment ·))

/-- A method as it is read behind its sign. -/
def plainMethod (inScope : Bool) (selector returnType : String)
    (parameters : List Parameter) : Method :=
  { selector, returnType, parameters
    inNonnullScope := inScope
    returnNullable := typeIsNullable returnType }

/-- The label of a method behind the look for it. -/
lemma ReadsText.behind_label {α : Type} {k : Token → Production α}
    {q : Production α} {label : String} {cs : List Char} {a : α}
    {follow : List Char → Prop} (h : LabelReads rules label)
    (hk : ∀ t, t.value = label → ReadsText rules (k t) cs a follow)
    (hcs : ∀ after, follow after → EndsToken (cs ++ after)) :
    ReadsText rules (look (fun ts => !startsLabel ts) >>= fun b =>
        if b = true then q else advance >>= k)
      (label.toList ++ cs) a follow := by
  intro after ts hafter hts
  rw [List.append_assoc] at hts
  obtain ⟨t, us, rfl, rfl, hend, hlabel, hus⟩ :=
    h.exists_cons (hcs after hafter) hts
  rw [result_bind_of_ok (result_look _ _), hlabel, Bool.not_true,
    if_neg Bool.false_ne_true, result_bind_of_ok (result_advance _),
    step_cons hend, nextToken_cons]
  exact hk t rfl after us hafter hus

lemma readsText_trailingMacros :
    ReadsText rules (scan trailingMacros) [] [] (HeadIn [';']) := by
  intro after ts hafter hts
  obtain ⟨c, hc, t, us, rfl, ht⟩ :=
    exists_cons_of_mark_head (by decide) hafter hts
  rw [List.mem_singleton.mp hc] at ht
  refine ⟨t :: us, ?_, hts⟩
  rw [result_scan, trailingMacros, if_neg (by simp [ht, punctuationKind])]

lemma readsText_methodRest (inScope : Bool) (type label : String)
    (segments : List (String × Parameter)) :
    ReadsText rules (methodRest inScope type label segments) [';']
      (plainMethod inScope
        (if segments.isEmpty then label else String.join (segments.map (·.1)))
        type (segments.map (·.2))) fun _ => True :=
  readsText_trailingMacros.bind ((readsText_accept (by decide) rfl _).map _)
    fun _ _ => HeadIn.cons (List.mem_singleton.mpr rfl) _

/-- A method as it is written out behind its sign. -/
lemma readsText_methodBody {selector returnType : String}
    {parameters : List Parameter} {cs : List Char}
    (h : SelectorReads rules selector parameters cs)
    (htype : TypeReads rules returnType) (inScope : Bool) :
    ReadsText rules (methodBody inScope)
      (' ' :: '(' :: (returnType.toList ++ [')']) ++ (cs ++ [';']))
      (plainMethod inScope selector returnType parameters)
      fun _ => True := by
  refine (readsText_parenthesizedType htype _ fun _ => True).blank.bind ?_
    fun _ _ => trivial
  cases h with
  | @plain label h =>
      have hcolon : ReadsText rules (accept .colon) [] false (HeadIn [';']) :=
        readsText_accept_not (by decide)
      have hnone : ReadsText rules
          (pure [] : Production (List (String × Parameter))) [] []
          fun _ => True := .pure
      refine .behind_label h ?_ fun _ _ => endsToken_cons (by decide) _
      rintro t rfl
      exact hcolon.bind (.elseBranch Bool.false_ne_true (hnone.bind
        (readsText_methodRest inScope returnType t.value [])
        fun _ _ => trivial))
        fun _ _ => HeadIn.cons (List.mem_singleton.mpr rfl) _
  | @labelled s ss h =>
      obtain ⟨hs, hss⟩ := List.forall_mem_cons.mp h
      have htext : printedSegment s ++ ss.flatMap (' ' :: printedSegment ·)
            ++ [';']
          = s.1.toList ++ ([':'] ++ (printedParameter s.2
            ++ ss.flatMap (' ' :: printedSegment ·) ++ [';'])) := by
        simp only [printedSegment, List.append_assoc, List.cons_append,
          List.nil_append]
      have hrest : ReadsText rules _ _ _ _ :=
        readsText_methodRest inScope returnType s.1 ((s :: ss).map withColon)
      rw [List.map_map, List.map_map] at hrest
      have hcolon : ReadsText rules (accept .colon) [':'] true fun _ => True :=
        readsText_accept (by decide) rfl _
      rw [htext]
      refine .behind_label hs.1 ?_ fun _ _ => endsToken_cons (by decide) _
      intro t ht
      rw [ht]
      exact hcolon.bind (.thenBranch rfl
        ((readsText_selectorSegments hs.2 hss).bind hrest
          fun _ _ => HeadIn.cons (List.mem_singleton.mpr rfl) _))
        fun _ _ => trivial

/-! ### Descriptions of methods -/

lemma LabelReads.not_mem_colon {label : String}
    (h : LabelReads rules label) : ':' ∉ label.toList := by
  obtain ⟨kind, hread, hkind⟩ := h
  intro hmem
  obtain ⟨-, hcolon⟩ := Shape.eq_mark hread (by decide) hmem
  have hcolon : kind = .colon := hcolon
  rcases hkind with ⟨rfl, -⟩ | hkind
  · exact nomatch hcolon
  · exact absurd (hcolon ▸ hkind) (by decide)

lemma LabelReads.ne_nil {label : String} (h : LabelReads rules label) :
    label.toList ≠ [] := by
  obtain ⟨kind, hread, -⟩ := h
  exact hread.toList_ne_nil

lemma splitAtChar_append {sep : Char} {cs : List Char} (h : sep ∉ cs)
    (ds : List Char) :
    splitAtChar sep (cs ++ sep :: ds) = cs :: splitAtChar sep ds := by
  induction cs with
  | nil => rw [List.nil_append, splitAtChar, if_pos rfl]
  | cons c cs ih =>
      rw [List.mem_cons, not_or] at h
      rw [List.cons_append, splitAtChar, if_neg (Ne.symm h.1), ih h.2]

/-- The pieces of a selector between its colons are the labels. -/
lemma splitAtChar_join {labels : List String}
    (h : ∀ label ∈ labels, ':' ∉ label.toList) :
    splitAtChar ':' (String.join (labels.map (· ++ ":"))).toList
      = labels.map String.toList ++ [[]] := by
  induction labels with
  | nil => rfl
  | cons l ls ih =>
      obtain ⟨hl, hls⟩ := List.forall_mem_cons.mp h
      rw [List.map_cons, String.join_cons, String.toList_append,
        String.toList_append, List.append_assoc]
      exact (splitAtChar_append hl _).trans
        (congrArg (l.toList :: ·) (ih hls))

/-- The labels of a selector are found again between its colons. -/
lemma colonSegments_join {labels : List String}
    (h : ∀ label ∈ labels, LabelReads rules label) :
    colonSegments (String.join (labels.map (· ++ ":"))) = labels := by
  have hfilter : (labels.map String.toList).filter (!·.isEmpty)
      = labels.map String.toList := by
    rw [List.filter_eq_self]
    intro cs hcs
    obtain ⟨label, hlabel, rfl⟩ := List.mem_map.mp hcs
    simpa using (h label hlabel).ne_nil
  rw [colonSegments,
    splitAtChar_join fun label hl => (h label hl).not_mem_colon,
    List.filter_append, hfilter]
  simp [List.map_map, Function.comp_def]

lemma toList_intercalate_cons (sep a : String) (as : List String) :
    (sep.intercalate (a :: as)).toList
      = a.toList ++ as.flatMap (sep.toList ++ ·.toList) := by
  induction as generalizing a with
  | nil => simp
  | cons b bs ih =>
      rw [String.intercalate_cons_cons, String.toList_append,
        String.toList_append, ih, List.flatMap_cons, List.append_assoc,
        List.append_assoc]

/-- The segments of a selector as they are described. -/
lemma intercalate_segments (s : String × Parameter)
    (ss : List (String × Parameter)) :
    (" ".intercalate ((s :: ss).map fun x =>
        x.1 ++ ":(" ++ x.2.type ++ ")" ++ x.2.name)).toList
      = printedSegment s ++ ss.flatMap (' ' :: printedSegment ·) := by
  have hone : ∀ x : String × Parameter,
      (x.1 ++ ":(" ++ x.2.type ++ ")" ++ x.2.name).toList
        = printedSegment x := by
    intro x
    simp [printedSegment, printedParameter]
  rw [List.map_cons, toList_intercalate_cons, hone, List.flatMap_map]
  simp only [hone]
  rfl

/-- The labels of a method are those of its segments. -/
lemma labels_eq {m : Method} {s : String × Parameter}
    {ss : List (String × Parameter)}
    (h : ∀ x ∈ s :: ss, SegmentReads rules x)
    (hm : m.selector = String.join ((s :: ss).map (·.1 ++ ":"))) :
    m.labels = (s :: ss).map (·.1) := by
  have hjoin : m.selector
      = String.join (((s :: ss).map (·.1)).map (· ++ ":")) := by
    rw [hm, List.map_map]
    rfl
  have hcolon : m.selector.toList.contains ':' = true := by
    simp [hm, String.join_cons]
  have hlabels : ∀ label ∈ (s :: ss).map (·.1), LabelReads rules label := by
    intro label hlabel
    obtain ⟨x, hx, rfl⟩ := List.mem_map.mp hlabel
    exact (h x hx).1
  rw [Method.labels, if_pos hcolon, hjoin, colonSegments_join hlabels]

/-- The sign of a method. -/
def methodSign (onClass : Bool) : Char :=
  if onClass then '+' else '-'

/-- A method is described by its sign and what is read behind it. -/
lemma toList_describe_method {m : Method} {cs : List Char}
    (h : SelectorReads rules m.selector m.parameters cs) (onClass : Bool) :
    (m.describe onClass).toList
      = methodSign onClass :: (' ' :: '(' :: (m.returnType.toList ++ [')'])
        ++ (cs ++ [';'])) := by
  have hsign : (if onClass = true then "+" else "-").toList
      = [methodSign onClass] := by
    cases onClass <;> rfl
  generalize hselector : m.selector = selector at h
  generalize hparameters : m.parameters = parameters at h
  cases h with
  | plain h =>
      simp [Method.describe, hsign, hselector, hparameters]
  | @labelled s ss h =>
      have hbody := intercalate_segments s ss
      have hcond : (!((s :: ss).map (·.2)).isEmpty
          && ((s :: ss).map (·.1)).length == ((s :: ss).map (·.2)).length)
          = true := by
        simp
      rw [Method.describe, labels_eq h hselector, hparameters]
      simp only [if_pos hcond, List.zipWith_map, List.zipWith_self]
      rw [String.toList_append, String.toList_append, String.toList_append,
        String.toList_append, String.toList_append, hsign, hbody]
      simp

/-! ### Attributes -/

/-- The text is one identifier. -/
def IsName (rules : MacroRules) (name : String) : Prop :=
  ReadAlone rules (.identifier, name)

instance (rules : MacroRules) (name : String) :
    Decidable (IsName rules name) :=
  inferInstanceAs (Decidable (_ = _))

lemma IsName.readable {name : String} (h : IsName rules name) :
    Readable rules (.identifier, name) :=
  ReadAlone.readable h (by simp [Face.Plain])

/-- The attribute is a name, which may be `const`, or a name with another
one as its value, which may end in a colon. -/
inductive AttributeForm (rules : MacroRules) : String → Prop
  | name {name : String}
      (h : IsName rules name ∨ ReadAlone rules (.kwConst, name)) :
      AttributeForm rules name
  | value {name value : String}
      (h : IsName rules name ∨ ReadAlone rules (.kwConst, name))
      (hv : IsName rules value) :
      AttributeForm rules (name ++ "=" ++ value)
  | selector {name value : String}
      (h : IsName rules name ∨ ReadAlone rules (.kwConst, name))
      (hv : IsName rules value) :
      AttributeForm rules (name ++ "=" ++ value ++ ":")

/-- The name of an attribute behind the look for it. -/
lemma ReadsText.behind_attributeName {α : Type} {k : Token → Production α}
    {q : Production α} {name : String} {cs : List Char} {a : α}
    {follow : List Char → Prop}
    (h : IsName rules name ∨ ReadAlone rules (.kwConst, name))
    (hk : ∀ t, t.value = name → ReadsText rules (k t) cs a follow)
    (hcs : ∀ after, follow after → EndsToken (cs ++ after)) :
    ReadsText rules (look (headIn [.identifier, .kwConst]) >>= fun b =>
        if b = true then advance >>= k else q)
      (name.toList ++ cs) a follow := by
  obtain ⟨kind, hread, hkind⟩ : ∃ kind, Readable rules (kind, name)
      ∧ (kind = .identifier ∨ kind = .kwConst) := by
    rcases h with h | h
    · exact ⟨_, h.readable, .inl rfl⟩
    · exact ⟨_, h.readable (by simp [Face.Plain]), .inr rfl⟩
  have hend : kind ≠ .endOfInput := by
    rcases hkind with rfl | rfl <;> decide
  have hadvance : ReadsText rules (advance >>= k) (name.toList ++ cs) a
      follow :=
    .behind_advance hread hend hk hcs
  refine .behind_look (a := true) (fun after ts hafter hts => ?_)
    (.thenBranch rfl hadvance)
  rw [List.append_assoc] at hts
  obtain ⟨t, us, rfl, ht, -⟩ :=
    exists_cons_of_readable hread (hcs after hafter) hts
  have htkind : t.kind = kind := congrArg Prod.fst ht
  rcases hkind with rfl | rfl <;> simp [htkind]

/-- An attribute is read as it stands. -/
lemma readsText_propertyAttribute {a : String}
    (h : AttributeForm rules a) :
    ReadsText rules propertyAttribute a.toList (some a)
      (HeadIn [',', ')']) := by
  have hequals : ReadsText rules (accept .equals) ['='] true fun _ => True :=
    readsText_accept (by decide) rfl _
  have hnoequals : ReadsText rules (accept .equals) [] false
      (HeadIn [',', ')']) := readsText_accept_not (by decide)
  have hcolon : ReadsText rules (accept .colon) [':'] true fun _ => True :=
    readsText_accept (by decide) rfl _
  have hnocolon : ReadsText rules (accept .colon) [] false
      (HeadIn [',', ')']) := readsText_accept_not (by decide)
  cases h with
  | name h =>
      rw [← List.append_nil a.toList]
      refine .behind_attributeName h ?_ fun _ h => h.endsToken (by decide)
      rintro t rfl
      exact hnoequals.bind_nil (.elseBranch Bool.false_ne_true .pure)
  | @value name value h hv =>
      rw [String.toList_append, String.toList_append, List.append_assoc,
        ← List.append_nil value.toList]
      refine .behind_attributeName h ?_ fun _ _ => endsToken_cons (by decide) _
      rintro t rfl
      refine hequals.bind (.thenBranch rfl ?_) fun _ _ => trivial
      refine .behind_advance hv.readable (by decide) ?_
        fun _ h => h.endsToken (by decide)
      rintro u rfl
      exact hnocolon.bind_nil (.elseBranch Bool.false_ne_true .pure)
  | @selector name value h hv =>
      rw [String.toList_append, String.toList_append, String.toList_append,
        List.append_assoc, List.append_assoc]
      refine .behind_attributeName h ?_ fun _ _ => endsToken_cons (by decide) _
      rintro t rfl
      refine hequals.bind (.thenBranch rfl ?_) fun _ _ => trivial
      refine .behind_advance hv.readable (by decide) ?_
        fun _ _ => endsToken_cons (by decide) _
      rintro u rfl
      exact (hcolon.imp fun _ _ => trivial).bind_nil (.thenBranch rfl .pure)

/-- The attributes of a property as they are written out. -/
def printedAttributes : List String → List Char
  | [] => []
  | a :: as =>
    ' ' :: '(' :: (a.toList ++ as.flatMap (',' :: ' ' :: ·.toList) ++ [')'])

lemma readsText_propertyAttributes {as : List String} (hne : as ≠ [])
    (h : ∀ a ∈ as, AttributeForm rules a) :
    ReadsText rules propertyAttributes (printedAttributes as) as
      fun _ => True := by
  obtain ⟨a, as, rfl⟩ := List.exists_cons_of_ne_nil hne
  have hopen : ReadsText rules (accept .openParen) ['('] true fun _ => True :=
    readsText_accept (by decide) rfl _
  have hall := readsText_commaSeparated onward_propertyAttribute
    fun b hb => readsText_propertyAttribute (h b hb)
  have hclose : ReadsText rules
      (expect .closeParen .attributesClose >>= fun _ =>
        pure (((a :: as).map some).filterMap id))
      [')'] (((a :: as).map some).filterMap id) fun _ => True :=
    .behind_expect (by decide) rfl (by decide) .pure
  have hread : ReadsText rules propertyAttributes (printedAttributes (a :: as))
      (((a :: as).map some).filterMap id) fun _ => True :=
    hopen.blank.bind (.thenBranch rfl (hall.bind hclose
      fun _ _ => HeadIn.cons List.mem_cons_self _)) fun _ _ => trivial
  rwa [List.filterMap_map, Function.id_comp, List.filterMap_some] at hread

/-! ### Properties -/

/-- The type of the property is read as it stands in front of the name. -/
def PropertyTypeReads (rules : MacroRules) (type name : String) : Prop :=
  ReadsText rules (scan typeText) type.toList type
    fun after => ∃ ds, after = ' ' :: (name.toList ++ ';' :: ds)

/-- The name of the property behind its type. -/
lemma PropertyTypeReads.result_propertyNameAndType {type name : String}
    (h : PropertyTypeReads rules type name)
    (hname : Readable rules (.identifier, name)) {cs : List Char}
    {ts : List Token}
    (hts : ts.map Token.face
      = rowOf rules (type.toList ++ ' ' :: (name.toList ++ ';' :: cs))) :
    headIs .openParen ts = false
      ∧ ∃ rest, propertyNameAndType.result ts = (.ok (name, type, false), rest)
        ∧ rest.map Token.face = rowOf rules (';' :: cs) := by
  obtain ⟨row, hrow, hrest⟩ := h _ ts ⟨cs, rfl⟩ hts
  rw [rowOf_blank (by decide)] at hrest
  obtain ⟨t, us, rfl, ht, hus⟩ :=
    exists_cons_of_readable hname (endsToken_cons (by decide) cs) hrest
  have hkind : t.kind = .identifier := congrArg Prod.fst ht
  have htype : (typeText ts).2 = t :: us := congrArg Prod.snd hrow
  refine ⟨not_headIs_openParen_of_typePieces htype hkind, us, ?_, hus⟩
  have hblock : opensBlock (t :: us) = false := by
    simp [opensBlock, hkind]
  have hvalue : t.value = name := congrArg Prod.snd ht
  have hname' : (expectIdentifier .propertyName).result (t :: us)
      = (.ok name, us) := by
    rw [expectIdentifier,
      result_bind_of_ok (result_expect_cons hkind (by decide) _ us),
      result_pure, hvalue]
  rw [propertyNameAndType, result_bind_of_ok hrow,
    result_bind_of_ok (result_look _ _), hblock,
    if_neg Bool.false_ne_true, result_bind_of_ok hname', result_pure]

/-- A property as it is read behind its keyword. -/
def plainProperty (inScope : Bool) (name type : String)
    (attributes : List String) : Property :=
  { name, type, attributes
    nullable := attributes.any nullableMarkers.contains
      || typeIsNullable type
    inNonnullScope := inScope }

/-- What is written out of a property behind its keyword. -/
def printedProperty (name type : String) (attributes : List String) :
    List Char :=
  printedAttributes attributes
    ++ ' ' :: (type.toList ++ ' ' :: (name.toList ++ [';']))

lemma toList_describe_property (p : Property) :
    p.describe.toList = "@property".toList
      ++ printedProperty p.name p.type p.attributes := by
  obtain ⟨name, type, attributes, _, _, _⟩ := p
  cases attributes with
  | nil => simp [Property.describe, printedProperty, printedAttributes]
  | cons a as =>
      have hjoined := toList_intercalate_cons ", " a as
      simp only [Property.describe, printedProperty, printedAttributes,
        String.toList_append, List.isEmpty_cons, Bool.false_eq_true,
        if_false, hjoined]
      simp

/-- A property as it is written out behind its keyword. -/
lemma readsText_propertyBody {name type : String} {attributes : List String}
    (htype : PropertyTypeReads rules type name)
    (hname : Readable rules (.identifier, name))
    (hattributes : ∀ a ∈ attributes, AttributeForm rules a)
    (inScope : Bool) :
    ReadsText rules (propertyBody inScope)
      (printedProperty name type attributes)
      (plainProperty inScope name type attributes) fun _ => True := by
  intro after ts _ hts
  have htext : printedProperty name type attributes ++ after
      = printedAttributes attributes ++ ' ' :: (type.toList
        ++ ' ' :: (name.toList ++ ';' :: after)) := by
    simp [printedProperty]
  rw [htext] at hts
  obtain ⟨row, hrow, hrest⟩ : ∃ row,
      propertyAttributes.result ts = (.ok attributes, row)
        ∧ row.map Token.face = rowOf rules
          (type.toList ++ ' ' :: (name.toList ++ ';' :: after)) := by
    by_cases hne : attributes = []
    · subst hne
      rw [printedAttributes, List.nil_append, rowOf_blank (by decide)] at hts
      have hopen := (htype.result_propertyNameAndType hname hts).1
      refine ⟨ts, ?_, hts⟩
      rw [propertyAttributes,
        result_bind_of_ok (result_accept_of_not_headIs hopen),
        if_neg Bool.false_ne_true, result_pure]
    · obtain ⟨row, hrow, hrest⟩ :=
        readsText_propertyAttributes hne hattributes _ ts trivial hts
      exact ⟨row, hrow, rowOf_blank (c := ' ') (by decide) _ ▸ hrest⟩
  obtain ⟨-, us, hus, hlast⟩ := htype.result_propertyNameAndType hname hrest
  obtain ⟨s, rest, rfl, hs, hafter⟩ := exists_cons_of_mark (by decide) hlast
  refine ⟨rest, ?_, hafter⟩
  have hsemi : (accept .semicolon).result (s :: rest) = (.ok true, rest) :=
    result_accept_of_headIs (by simp [hs, punctuationKind])
  rw [propertyBody, result_bind_of_ok hrow, result_bind_of_ok hus]
  simp only [Bool.or_false]
  rw [result_bind_of_ok hsemi, result_pure]
  rfl

end HeaderBinding
