/-
Members that were read of a text can be written out.

* `Passed`: the tokens that were passed over can be read again, which is
  so of the tokens of a text that are neither quoted nor directives;
* `ParameterRead`, `SegmentRead`: a parameter and a segment as they are
  read, where the type, the name and the label may be missing;
* `exists_of_furtherSegment`, `exists_of_selectorSegments`,
  `exists_of_methodBody`, `exists_of_propertyBody`: how segments and members
  are read;
* `selectorRead_of_methodBody`: a selector is read with such gaps, and
  without them it can be written out (`SelectorRead.exists_reads`);
* `propertyTypeReads_of_typeText`: the type of a property.
-/
import HeaderBinding.Proofs.Header.Described
import HeaderBinding.Proofs.Header.Orderly

namespace HeaderBinding

open Production

variable {rules : MacroRules}

/-! ### Tokens that can be read again -/

/-- From the one row the other is reached, and the tokens between them can
be read again. -/
def Passed (rules : MacroRules) (ts rest : List Token) : Prop :=
  ∃ us, ts = us ++ rest ∧ ∀ u ∈ us, Readable rules u.face

/-- The same of each part of the way. -/
lemma Passed.split {as bs cs : List Token} (h : Passed rules as cs)
    (hab : Reaches as bs) (hbc : Reaches bs cs) :
    Passed rules as bs ∧ Passed rules bs cs := by
  obtain ⟨us, rfl, hus⟩ := h
  obtain ⟨xs, hxs⟩ := hab.suffix
  obtain ⟨ys, rfl⟩ := hbc.suffix
  rw [← List.append_assoc] at hxs
  obtain rfl := List.append_cancel_right hxs
  exact ⟨⟨xs, List.append_assoc _ _ _, fun u hu =>
      hus u (List.mem_append_left ys hu)⟩,
    ys, rfl, fun u hu => hus u (List.mem_append_right xs hu)⟩

/-- A token that is passed over can be read again. -/
lemma Passed.head {t : Token} {ts rest : List Token}
    (h : Passed rules (t :: ts) rest) (hk : t.kind ≠ .endOfInput)
    (hr : Reaches ts rest) : Readable rules t.face := by
  obtain ⟨⟨us, hus, hread⟩, -⟩ := h.split (.pass hk (.refl ts)) hr
  have hus' : us ++ ts = [t] ++ ts := hus.symm
  rw [List.append_cancel_right hus'] at hread
  exact hread t List.mem_cons_self

lemma Passed.tail {t : Token} {ts rest : List Token}
    (h : Passed rules (t :: ts) rest) (hk : t.kind ≠ .endOfInput)
    (hr : Reaches ts rest) : Passed rules ts rest :=
  (h.split (.pass hk (.refl ts)) hr).2

/-! ### Parameters -/

/-- The type is missing, which stands for `id`, or is read as it stands. -/
def TypeRead (rules : MacroRules) (text : String) : Prop :=
  text = "id" ∨ TypeReads rules text

lemma typeRead_of_parenthesizedType {due : Expectation} {text : String}
    {ts rest : List Token}
    (h : (parenthesizedType due).result ts = (.ok text, rest))
    (hp : Passed rules ts rest) : TypeRead rules text := by
  rw [parenthesizedType] at h
  cases hopen : headIs .openParen ts with
  | false =>
      rw [result_bind_of_ok (result_accept_of_not_headIs hopen),
        if_neg Bool.false_ne_true] at h
      exact .inl (eq_of_result_pure h).1.symm
  | true =>
      rw [result_bind_of_ok (result_accept_of_headIs hopen), if_pos rfl,
        result_bind_of_ok (result_scan _ _)] at h
      obtain ⟨c, mid, hc, h⟩ := exists_of_result_bind h
      obtain ⟨htext, rfl⟩ := eq_of_result_pure h
      obtain ⟨hrow, hclose⟩ := eq_cons_of_result_expect (by decide) hc
      have htype : Reaches ts.tail (c :: mid) :=
        hrow ▸ reaches_typeInParens ts.tail
      have hmid : Reaches (c :: mid) mid :=
        .pass (by simp [hclose]) (.refl mid)
      obtain ⟨us, hus, hread⟩ := ((hp.split
        (reaches_tail_of_headIs (by decide) hopen) (htype.trans hmid)).2.split
        htype hmid).1
      rw [← htext]
      exact .inr (typeReads_of_typeInParens hrow
        (by simp [hclose]) hus hread)

/-- A parameter as it is read: its type and its name may be missing. -/
structure ParameterRead (rules : MacroRules) (p : Parameter) : Prop where
  type : TypeRead rules p.type
  name : p.name = "" ∨ Readable rules (.identifier, p.name)
  nullable : p.nullable = typeIsNullable p.type

lemma readable_of_identifierOrEmpty {name : String} {ts rest : List Token}
    (h : identifierOrEmpty.result ts = (.ok name, rest))
    (hp : Passed rules ts rest) :
    name = "" ∨ Readable rules (.identifier, name) := by
  rw [identifierOrEmpty] at h
  obtain ⟨name?, mid, hname, h⟩ := exists_of_result_bind h
  obtain ⟨rfl, rfl⟩ := eq_of_result_pure h
  rw [identifier?, result_bind_of_ok (result_look _ _)] at hname
  split at hname
  · rename_i hhead
    obtain ⟨t, us, rfl, hk⟩ := exists_cons_of_headIs hhead
    have hend : t.kind ≠ .endOfInput := by simp [hk]
    rw [result_bind_of_ok (result_advance _), step_cons hend,
      nextToken_cons] at hname
    obtain ⟨rfl, rfl⟩ := eq_of_result_pure hname
    have hread : Readable rules (t.kind, t.value) := hp.head hend (.refl us)
    exact .inr (hk ▸ hread)
  · rw [← (eq_of_result_pure hname).1]
    exact .inl rfl

lemma parameterRead_of_methodParameter {p : Parameter}
    {ts rest : List Token} (h : methodParameter.result ts = (.ok p, rest))
    (hp : Passed rules ts rest) : ParameterRead rules p := by
  rw [methodParameter] at h
  obtain ⟨type, mid, htype, h⟩ := exists_of_result_bind h
  obtain ⟨name, last, hname, h⟩ := exists_of_result_bind h
  obtain ⟨rfl, rfl⟩ := eq_of_result_pure h
  obtain ⟨hp1, hp2⟩ := hp.split
    ((onward_parenthesizedType _).reaches htype)
    (onward_identifierOrEmpty.reaches hname)
  exact ⟨typeRead_of_parenthesizedType htype hp1,
    readable_of_identifierOrEmpty hname hp2, rfl⟩

/-! ### Segments -/

lemma labelReads_of_startsLabel {t : Token} {ts : List Token}
    (h : startsLabel (t :: ts) = true) (hread : Readable rules t.face) :
    LabelReads rules t.value :=
  ⟨t.kind, hread, startsLabel_cons_iff.mp h⟩

/-- A segment as it is read: its label may be missing. -/
def SegmentRead (rules : MacroRules) (x : String × Parameter) : Prop :=
  (x.1 = "" ∨ LabelReads rules x.1) ∧ ParameterRead rules x.2

/-- A further segment is a parameter behind its label and a colon, or behind
a colon alone. -/
lemma exists_of_furtherSegment {s : String × Parameter}
    {ts rest : List Token}
    (h : furtherSegment.result ts = (.ok (some s), rest)) :
    ∃ label mid, s.1 = label ++ ":" ∧ Reaches ts mid
      ∧ methodParameter.result mid = (.ok s.2, rest)
      ∧ (label = "" ∨ ∃ t us, ts = t :: us ∧ startsLabel (t :: us) = true
        ∧ label = t.value ∧ Reaches us mid) := by
  rw [furtherSegment, result_bind_of_ok (result_look _ _)] at h
  split at h
  · rename_i hlook
    rw [Bool.and_eq_true, decide_eq_true_eq] at hlook
    obtain ⟨t, us, rfl⟩ := exists_cons_of_startsLabel hlook.1
    have hend := ne_endOfInput_of_startsLabel hlook.1
    rw [result_bind_of_ok (result_advance _), step_cons hend, nextToken_cons,
      result_bind_of_ok (result_skip _ _)] at h
    obtain ⟨p, mid, hparameter, h⟩ := exists_of_result_bind h
    obtain ⟨hs, rfl⟩ := eq_of_result_pure h
    obtain rfl := Option.some.inj hs
    exact ⟨t.value, step us, rfl, .pass hend (reaches_step us), hparameter,
      .inr ⟨t, us, rfl, hlook.1, rfl, reaches_step us⟩⟩
  · obtain ⟨b, mid, hb, h⟩ := exists_of_result_bind h
    have hcolon := (onward_accept (by decide)).reaches hb
    split at h
    · obtain ⟨p, last, hparameter, h⟩ := exists_of_result_bind h
      obtain ⟨hs, rfl⟩ := eq_of_result_pure h
      obtain rfl := Option.some.inj hs
      exact ⟨"", mid, rfl, hcolon, hparameter, .inl rfl⟩
    · exact absurd (eq_of_result_pure h).1.symm (Option.some_ne_none s)

lemma segmentRead_of_furtherSegment {s : String × Parameter}
    {ts rest : List Token}
    (h : furtherSegment.result ts = (.ok (some s), rest))
    (hp : Passed rules ts rest) :
    ∃ x, s = withColon x ∧ SegmentRead rules x := by
  obtain ⟨label, mid, hs, hmid, hparameter, hlabel⟩ :=
    exists_of_furtherSegment h
  have hrest := onward_methodParameter.reaches hparameter
  refine ⟨(label, s.2), Prod.ext hs rfl, ?_,
    parameterRead_of_methodParameter hparameter (hp.split hmid hrest).2⟩
  rcases hlabel with rfl | ⟨t, us, rfl, hlook, rfl, hus⟩
  · exact .inl rfl
  · exact .inr (labelReads_of_startsLabel hlook
      (hp.head (ne_endOfInput_of_startsLabel hlook) (hus.trans hrest)))

/-- Segments as they are read are those of labels with their colons. -/
lemma exists_map_withColon {ss : List (String × Parameter)}
    (h : ∀ s ∈ ss, ∃ x, s = withColon x ∧ SegmentRead rules x) :
    ∃ xs : List (String × Parameter), ss = xs.map withColon
      ∧ ∀ x ∈ xs, SegmentRead rules x := by
  induction ss with
  | nil => exact ⟨[], rfl, List.forall_mem_nil _⟩
  | cons s ss ih =>
      obtain ⟨⟨x, rfl, hx⟩, hss⟩ := List.forall_mem_cons.mp h
      obtain ⟨xs, rfl, hxs⟩ := ih hss
      exact ⟨x :: xs, rfl, List.forall_mem_cons.mpr ⟨hx, hxs⟩⟩

/-- The segments of a selector are a parameter behind the first label, and
further segments. -/
lemma exists_of_selectorSegments {label : String}
    {ss : List (String × Parameter)} {ts rest : List Token}
    (h : (selectorSegments label).result ts = (.ok ss, rest)) :
    ∃ p others mid last, ss = (label ++ ":", p) :: others
      ∧ methodParameter.result ts = (.ok p, mid)
      ∧ (repeated furtherSegment).result mid = (.ok others, last)
      ∧ Reaches last rest := by
  rw [selectorSegments] at h
  obtain ⟨p, mid, hparameter, h⟩ := exists_of_result_bind h
  obtain ⟨others, last, hothers, h⟩ := exists_of_result_bind h
  rw [result_bind_of_ok (result_look _ _)] at h
  split at h
  · rename_i hvariadic
    rw [result_bind_of_ok (result_skip _ _)] at h
    obtain ⟨rfl, rfl⟩ := eq_of_result_pure h
    exact ⟨p, others, mid, last, rfl, hparameter, hothers,
      reaches_drop_two (by decide) (by decide) hvariadic⟩
  · obtain ⟨rfl, rfl⟩ := eq_of_result_pure h
    exact ⟨p, others, mid, _, rfl, hparameter, hothers, .refl _⟩

lemma segmentsRead_of_selectorSegments {label : String}
    {ss : List (String × Parameter)} {ts rest : List Token}
    (hlabel : LabelReads rules label)
    (h : (selectorSegments label).result ts = (.ok ss, rest))
    (hp : Passed rules ts rest) :
    ∃ (x : String × Parameter) (xs : List (String × Parameter)),
      ss = (x :: xs).map withColon ∧ ∀ y ∈ x :: xs, SegmentRead rules y := by
  obtain ⟨p, others, mid, last, rfl, hparameter, hothers, hrest⟩ :=
    exists_of_selectorSegments h
  have hmid := onward_methodParameter.reaches hparameter
  have hlast := onward_furtherSegment.repeated.reaches hothers
  obtain ⟨hp1, hp2⟩ := hp.split hmid (hlast.trans hrest)
  have hpassed := (hp2.split hlast hrest).1
  obtain ⟨xs, rfl, hxs⟩ := exists_map_withColon fun s hs => by
    obtain ⟨us, behind, hus, hone, hbehind⟩ :=
      exists_of_mem_repeated onward_furtherSegment hothers hs
    have hsegment := onward_furtherSegment.reaches hone
    exact segmentRead_of_furtherSegment hone
      ((hpassed.split hus (hsegment.trans hbehind)).2.split hsegment
        hbehind).1
  exact ⟨(label, p), xs, rfl, List.forall_mem_cons.mpr
    ⟨⟨.inr hlabel, parameterRead_of_methodParameter hparameter hp1⟩, hxs⟩⟩

/-! ### Methods -/

/-- A selector with its parameters as they are read: one label, or
segments. -/
def SelectorRead (rules : MacroRules) (selector : String)
    (parameters : List Parameter) : Prop :=
  (parameters = [] ∧ LabelReads rules selector)
    ∨ ∃ (x : String × Parameter) (xs : List (String × Parameter)),
      selector = String.join ((x :: xs).map (·.1 ++ ":"))
        ∧ parameters = (x :: xs).map (·.2)
        ∧ ∀ y ∈ x :: xs, SegmentRead rules y

/-- What is read behind the segments keeps them as they are. -/
lemma exists_of_methodRest {inScope : Bool} {type label : String}
    {ss : List (String × Parameter)} {m : Method} {ts rest : List Token}
    (h : (methodRest inScope type label ss).result ts = (.ok m, rest)) :
    Reaches ts rest ∧ m.returnType = type ∧ m.parameters = ss.map (·.2)
      ∧ m.selector
        = (if ss.isEmpty then label else String.join (ss.map (·.1))) := by
  rw [methodRest, result_bind_of_ok (result_scan _ _)] at h
  obtain ⟨b, mid, hb, h⟩ := exists_of_result_bind h
  obtain ⟨rfl, rfl⟩ := eq_of_result_pure h
  exact ⟨(reaches_trailingMacros ts).trans
    ((onward_accept (by decide)).reaches hb), rfl, rfl, rfl⟩

/-- A method is read as its type and its first label, and the segments
behind a colon, if one follows. -/
lemma exists_of_methodBody {inScope : Bool} {m : Method}
    {ts rest : List Token}
    (h : (methodBody inScope).result ts = (.ok m, rest)) :
    ∃ t us ss last, (parenthesizedType .returnTypeClose).result ts
          = (.ok m.returnType, t :: us)
      ∧ startsLabel (t :: us) = true ∧ Reaches us last ∧ Reaches last rest
      ∧ m.parameters = ss.map (·.2)
      ∧ m.selector
        = (if ss.isEmpty then t.value else String.join (ss.map (·.1)))
      ∧ (ss = [] ∨ ∃ mid, Reaches us mid
        ∧ (selectorSegments t.value).result mid = (.ok ss, last)) := by
  rw [methodBody] at h
  obtain ⟨type, row, htype, h⟩ := exists_of_result_bind h
  rw [result_bind_of_ok (result_look _ _)] at h
  split at h
  · rw [result_bind_of_ok (result_look _ _)] at h
    cases h
  rename_i hlook
  have hlook : startsLabel row = true := by simpa using hlook
  obtain ⟨t, us, rfl⟩ := exists_cons_of_startsLabel hlook
  rw [result_bind_of_ok (result_advance _),
    step_cons (ne_endOfInput_of_startsLabel hlook), nextToken_cons] at h
  obtain ⟨b, mid, hb, h⟩ := exists_of_result_bind h
  have hmid := (onward_accept (by decide)).reaches hb
  split at h
  · obtain ⟨ss, last, hss, h⟩ := exists_of_result_bind h
    obtain ⟨hrest, rfl, hparameters, hselector⟩ := exists_of_methodRest h
    exact ⟨t, us, ss, last, htype, hlook,
      hmid.trans ((onward_selectorSegments _).reaches hss), hrest,
      hparameters, hselector, .inr ⟨mid, hmid, hss⟩⟩
  · obtain ⟨ss, last, hss, h⟩ := exists_of_result_bind h
    obtain ⟨rfl, rfl⟩ := eq_of_result_pure hss
    obtain ⟨hrest, rfl, hparameters, hselector⟩ := exists_of_methodRest h
    exact ⟨t, us, [], mid, htype, hlook, hmid, hrest, hparameters,
      hselector, .inl rfl⟩

lemma selectorRead_of_methodBody {inScope : Bool} {m : Method}
    {ts rest : List Token}
    (h : (methodBody inScope).result ts = (.ok m, rest))
    (hp : Passed rules ts rest) :
    TypeRead rules m.returnType
      ∧ SelectorRead rules m.selector m.parameters := by
  obtain ⟨t, us, ss, last, htype, hlook, hlast, hrest, hparameters,
    hselector, hss⟩ := exists_of_methodBody h
  have hend := ne_endOfInput_of_startsLabel hlook
  have hus := hlast.trans hrest
  obtain ⟨hp1, hp2⟩ := hp.split ((onward_parenthesizedType _).reaches htype)
    (.pass hend hus)
  have hlabel := labelReads_of_startsLabel hlook (hp2.head hend hus)
  refine ⟨typeRead_of_parenthesizedType htype hp1, ?_⟩
  rcases hss with rfl | ⟨mid, hmid, hss⟩
  · exact .inl ⟨hparameters, hselector ▸ hlabel⟩
  · have hsegments := (onward_selectorSegments _).reaches hss
    have hp3 := ((hp2.tail hend hus).split hmid (hsegments.trans hrest)).2
    obtain ⟨x, xs, rfl, hxs⟩ := segmentsRead_of_selectorSegments hlabel hss
      (hp3.split hsegments hrest).1
    refine .inr ⟨x, xs, ?_, ?_, hxs⟩
    · rw [hselector, List.map_map]
      rfl
    · rw [hparameters, List.map_map]
      rfl

/-! ### Nothing is missing -/

/-- The word `id` is kept, unless it is left out as a macro. -/
lemma exists_wordRole_id (h : "id" ∉ rules.skipNames) :
    ∃ kind, wordRole rules "id" = .keep kind
      ∧ kind ∈ [TokenKind.kwExtern, .identifier] := by
  have hskip : skipsArguments rules "id" = false := by
    simp [skipsArguments, h]
  have hlikely : rules.isLikelyMacro "id" = false := by
    simp [MacroRules.isLikelyMacro]
  have hsays : saysInitUnavailable "id" = false := by decide +kernel
  by_cases hextern : rules.isExternMacro "id" = true
  · refine ⟨.kwExtern, ?_, by decide⟩
    simp [wordRole, hskip, droppedWords, hextern]
  · refine ⟨.identifier, ?_, by decide⟩
    simp [wordRole, hskip, droppedWords, hextern, hsays, hlikely, wordKind]

/-- So it is read as a type. -/
lemma typeReads_id (h : "id" ∉ rules.skipNames) : TypeReads rules "id" := by
  obtain ⟨kind, hrole, hkind⟩ := exists_wordRole_id h
  have htext : "id".toList = ['i', 'd'] := rfl
  have hshape : Shape rules kind "id".toList := by
    rw [htext]
    exact .word (by decide) (by decide) (by decide)
      (List.forall_mem_singleton.mpr (by decide)) hrole
  have hread : Readable rules (kind, "id") := hshape
  intro after ts hafter hts
  obtain ⟨t, us, rfl, ht, hus⟩ :=
    exists_cons_of_readable hread (hafter.endsToken (by decide)) hts
  obtain ⟨c, hc, u, vs, rfl, hu⟩ :=
    exists_cons_of_mark_head (by decide) hafter hus
  refine ⟨u :: vs, ?_, hus⟩
  have hclose : u.kind = .closeParen := by
    rw [hu, List.mem_singleton.mp hc]
    rfl
  have hword : t.kind = kind := congrArg Prod.fst ht
  have hvalue : t.value = "id" := congrArg Prod.snd ht
  have hpieces : piecesInParens 0 (t :: u :: vs) = (["id"], u :: vs) := by
    have hlast : piecesInParens 0 (u :: vs) = ([], u :: vs) := by
      rw [piecesInParens, if_pos (.inr ⟨hclose, rfl⟩)]
    simp only [List.mem_cons, List.not_mem_nil, or_false] at hkind
    rcases hkind with rfl | rfl <;>
      simp [piecesInParens, readPiece, hword, hlast, hvalue]
  rw [result_scan, typeInParens, hpieces]
  rfl

lemma TypeRead.reads {text : String} (h : TypeRead rules text)
    (hid : text = "id" → "id" ∉ rules.skipNames) : TypeReads rules text := by
  rcases h with rfl | h
  · exact typeReads_id (hid rfl)
  · exact h

lemma ParameterRead.reads {p : Parameter} (h : ParameterRead rules p)
    (hname : p.name ≠ "") (hid : p.type = "id" → "id" ∉ rules.skipNames) :
    ParameterReads rules p :=
  ⟨h.type.reads hid, h.name.resolve_left hname, h.nullable⟩

/-- No segment of the selector lacks its label. -/
def HasLabels (selector : String) : Prop :=
  [] ∉ (splitAtChar ':' selector.toList).dropLast

instance (selector : String) : Decidable (HasLabels selector) :=
  inferInstanceAs (Decidable (_ ∉ _))

/-- In a selector without empty segments every label is one. -/
lemma labelReads_of_hasLabels {xs : List (String × Parameter)}
    (h : ∀ x ∈ xs, SegmentRead rules x)
    (hlabels : HasLabels (String.join (xs.map (·.1 ++ ":")))) :
    ∀ x ∈ xs, LabelReads rules x.1 := by
  have hjoin : xs.map (·.1 ++ ":") = (xs.map (·.1)).map (· ++ ":") := by
    rw [List.map_map]
    rfl
  have hcolons : ∀ label ∈ xs.map (·.1), ':' ∉ label.toList := by
    intro label hlabel
    obtain ⟨x, hx, rfl⟩ := List.mem_map.mp hlabel
    rcases (h x hx).1 with hempty | hreads
    · rw [hempty]
      exact List.not_mem_nil
    · exact hreads.not_mem_colon
  rw [HasLabels, hjoin, splitAtChar_join hcolons, List.dropLast_concat]
    at hlabels
  intro x hx
  refine (h x hx).1.resolve_left fun hempty => hlabels ?_
  exact List.mem_map.mpr ⟨x.1, List.mem_map.mpr ⟨x, hx, rfl⟩,
    by rw [hempty]; rfl⟩

/-- A selector that was read can be written out if it has no empty segment
and no parameter lacks its name. -/
lemma SelectorRead.exists_reads {selector : String}
    {parameters : List Parameter}
    (h : SelectorRead rules selector parameters)
    (hlabels : HasLabels selector) (hnames : ∀ p ∈ parameters, p.name ≠ "")
    (hids : ∀ p ∈ parameters, p.type = "id" → "id" ∉ rules.skipNames) :
    ∃ cs, SelectorReads rules selector parameters cs := by
  rcases h with ⟨rfl, hlabel⟩ | ⟨x, xs, rfl, rfl, hread⟩
  · exact ⟨_, .plain hlabel⟩
  · refine ⟨_, .labelled fun y hy => ?_⟩
    have hy' : y.2 ∈ (x :: xs).map (·.2) := List.mem_map.mpr ⟨y, hy, rfl⟩
    exact ⟨labelReads_of_hasLabels hread hlabels y hy,
      (hread y hy).2.reads (hnames _ hy') (hids _ hy')⟩

/-! ### Properties -/

/-- The type of a block property shows its parentheses. -/
lemma yields_blockProperty (type : String) :
    (blockProperty type).Yields fun x => '(' ∈ x.2.1.toList := by
  refine Yields.bind fun _ => Yields.bind fun _ => Yields.bind fun _ =>
    Yields.ite (Yields.bind fun _ => ?_) ?_ <;>
  exact Yields.bind fun _ => Yields.bind fun _ => Yields.bind fun _ =>
    Yields.ite (Yields.bind fun _ => yields_pure (by simp))
      (Yields.bind fun _ => yields_pure (by simp))

/-- A property that is no block is read as a type and the name behind
it. -/
lemma exists_of_propertyNameAndType {name type : String} {marked : Bool}
    {ts rest : List Token}
    (h : propertyNameAndType.result ts = (.ok (name, type, marked), rest))
    (hparen : '(' ∉ type.toList) :
    type = (typeText ts).1
      ∧ ∃ t, (typeText ts).2 = t :: rest ∧ t.kind = .identifier
        ∧ t.value = name := by
  rw [propertyNameAndType, result_bind_of_ok (result_scan _ _),
    result_bind_of_ok (result_look _ _)] at h
  split at h
  · exact absurd (yields_blockProperty _ _ _ _ h) hparen
  · obtain ⟨word, mid, hword, h⟩ := exists_of_result_bind h
    rw [result_pure, Prod.mk.injEq, Except.ok.injEq, Prod.mk.injEq,
      Prod.mk.injEq] at h
    obtain ⟨⟨rfl, rfl, -⟩, rfl⟩ := h
    obtain ⟨t, ht, hk, hvalue⟩ :=
      exists_cons_of_result_expectIdentifier hword
    exact ⟨rfl, t, ht, hk, hvalue⟩

/-- A property is read as its attributes, and a type and a name. -/
lemma exists_of_propertyBody {inScope : Bool} {p : Property}
    {ts rest : List Token}
    (h : (propertyBody inScope).result ts = (.ok p, rest)) :
    ∃ row mid marked, propertyAttributes.result ts = (.ok p.attributes, row)
      ∧ propertyNameAndType.result row
        = (.ok (p.name, p.type, marked), mid) := by
  rw [propertyBody] at h
  obtain ⟨attributes, row, hrow, h⟩ := exists_of_result_bind h
  obtain ⟨⟨name, type, marked⟩, mid, hmid, h⟩ := exists_of_result_bind h
  obtain ⟨b, last, -, h⟩ := exists_of_result_bind h
  obtain ⟨rfl, -⟩ := eq_of_result_pure h
  exact ⟨row, mid, marked, hrow, hmid⟩

/-- The type of a property can be written out in front of the name. -/
lemma propertyTypeReads_of_typeText {t : Token} {us rest : List Token}
    (h : (typeText (us ++ t :: rest)).2 = t :: rest)
    (hk : t.kind = .identifier) (hus : ∀ u ∈ us, Readable rules u.face)
    (ht : Readable rules t.face) :
    PropertyTypeReads rules (typeText (us ++ t :: rest)).1 t.value :=
  readsText_typeText h hk rfl hus ht

end HeaderBinding
