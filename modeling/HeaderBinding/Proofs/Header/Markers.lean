/-
Which nonnull scope a member stands in, and whether it is optional.

* `Recorded`, `Interface.members`, `Protocol.members`: the members of one
  sort that a class or a protocol holds; `Recorded.ReadBy`: the tokens that
  one was read from;
* `along_classBody`, `along_protocolBody`: the members of a body are found
  in its runs, each under the marks that begin the runs before it;
* `along_classMembers`, `along_protocolMembers`: so are those of a header;
* `MarksCount`: every mark before a member counts;
* `flags_follow_leads`: the flags of every member follow the marks that
  begin a run, and those are all marks where none stands within a run.
-/
import HeaderBinding.Proofs.Header.Runs
import HeaderBinding.Proofs.Header.Origin

namespace HeaderBinding

open Production

/-! ### Members -/

/-- The sorts of members, by the tokens they begin with. -/
inductive MemberSort
  | property
  | method (onClass : Bool)
deriving DecidableEq, Repr

/-- A property or a method that is recorded. -/
inductive Recorded
  | property (p : Property)
  | method (m : Method)
deriving DecidableEq, Repr

namespace Recorded

/-- The member is recorded as one within a nonnull scope. -/
def inNonnullScope : Recorded → Bool
  | property p => p.inNonnullScope
  | method m => m.inNonnullScope

/-- The member is recorded as an optional one. -/
def optional : Recorded → Bool
  | property p => p.optional
  | method m => m.optional

/-- The member, recorded as optional or not. -/
def withOptional (optional : Bool) : Recorded → Recorded
  | property p => property { p with optional }
  | method m => method { m with optional }

end Recorded

namespace MemberSort

/-- The kind of the token that a member begins with. -/
def lead : MemberSort → TokenKind
  | property => .atProperty
  | method onClass => signKind onClass

/-- A member of the sort behind its first token. -/
def body (inScope : Bool) : MemberSort → Production Recorded
  | property => do return .property (← propertyBody inScope)
  | method _ => do return .method (← methodBody inScope)

end MemberSort

/-- The member is what is read of the run of tokens; whether it is optional
is put to it. -/
def Recorded.ReadBy (m : Recorded) (sort : MemberSort) (run : List Token) :
    Prop :=
  ∃ t span rest inScope read, run = t :: span ∧ t.kind = sort.lead
    ∧ (sort.body inScope).result (span ++ rest) = (.ok read, rest)
    ∧ m = read.withOptional m.optional

/-- The members of a class. -/
def Interface.members (i : Interface) : MemberSort → List Recorded
  | .property => i.properties.map .property
  | .method onClass => (i.methods onClass).map .method

/-- The optional or the required methods of a protocol. -/
def Protocol.methods (p : Protocol) (optional onClass : Bool) :
    List Method :=
  if optional then
    if onClass then p.optionalClass else p.optionalInstance
  else if onClass then p.requiredClass else p.requiredInstance

/-- The optional or the required members of a protocol. -/
def Protocol.members (p : Protocol) (optional : Bool) :
    MemberSort → List Recorded
  | .property =>
    (p.properties.filter (·.optional = optional)).map .property
  | .method onClass => (p.methods optional onClass).map .method

/-- The members of the sort that a part of a class is: one or none. -/
def ClassPart.members : MemberSort → ClassPart → List Recorded
  | .property, .property p => [.property p]
  | .method false, .instanceMethod m => [.method m]
  | .method true, .classMethod m => [.method m]
  | _, _ => []

/-- The optional or the required members of the sort that a part of a
protocol is. -/
def ProtocolPart.members (optional : Bool) :
    MemberSort → ProtocolPart → List Recorded
  | .property, .property p =>
    if p.optional = optional then [.property p] else []
  | .method false, .instanceMethod m =>
    if m.optional = optional then [.method m] else []
  | .method true, .classMethod m =>
    if m.optional = optional then [.method m] else []
  | _, _ => []

/-- A map over what a filter keeps goes through the parts one by one. -/
lemma map_filterMap_eq_flatMap {α β γ : Type} {f : α → Option β} {h : β → γ}
    {g : α → List γ} (hg : ∀ a, ((f a).map h).toList = g a)
    (as : List α) : (as.filterMap f).map h = as.flatMap g := by
  rw [List.map_filterMap, List.filterMap_eq_flatMap_toList]
  exact List.flatMap_congr fun a _ => hg a

lemma Interface.members_ofParts (head : Interface) (parts : List ClassPart)
    (sort : MemberSort) :
    (head.ofParts parts).members sort
      = parts.flatMap (ClassPart.members sort) := by
  rcases sort with _ | _ | _ <;>
    exact map_filterMap_eq_flatMap (by rintro (_ | _ | _ | _ | _) <;> rfl)
      parts

lemma Protocol.members_ofParts (head : Protocol)
    (parts : List ProtocolPart) (optional : Bool) (sort : MemberSort) :
    (head.ofParts parts).members optional sort
      = parts.flatMap (ProtocolPart.members optional sort) := by
  rcases sort with _ | onClass
  · refine (congrArg (List.map _) (List.filter_filterMap ..)).trans
      (map_filterMap_eq_flatMap (fun part => ?_) parts)
    cases part <;> simp [ProtocolPart.property?, ProtocolPart.members,
      Option.filter]
    split <;> rfl
  · have hite : ∀ (c : Prop) [Decidable c] (m : Method),
        ((if c then some m else none).map Recorded.method).toList
          = if c then [.method m] else [] := by
      intro c _ m
      split <;> rfl
    cases onClass <;> cases optional <;>
      refine map_filterMap_eq_flatMap (fun part => ?_) parts <;>
      cases part <;> first | rfl | exact hite _ _

/-! ### Marks -/

/-- The marks that open and close a nonnull scope. -/
def scopeMarks : List TokenKind :=
  [.nonnullBegin, .nonnullEnd]

/-- The marks that begin the optional and the required members of a
protocol. -/
def sectionMarks : List TokenKind :=
  [.atOptional, .atRequired]

/-- The scope behind some runs. -/
def scopeOf (runs : List (List Token)) : Bool :=
  (leads runs).foldl (switched .nonnullBegin .nonnullEnd) false

/-- The section behind some runs of the body of a protocol. -/
def sectionOf (runs : List (List Token)) : Bool :=
  (leads runs).foldl (switched .atOptional .atRequired) false

lemma scopeOf_append_cons (runs : List (List Token)) (t : Token)
    (us : List Token) :
    scopeOf (runs ++ [t :: us])
      = switched .nonnullBegin .nonnullEnd (scopeOf runs) t.kind := by
  simp [scopeOf]

lemma sectionOf_append_cons (runs : List (List Token)) (t : Token)
    (us : List Token) :
    sectionOf (runs ++ [t :: us])
      = switched .atOptional .atRequired (sectionOf runs) t.kind := by
  simp [sectionOf]

/-- The end of a body holds no mark. -/
lemma scopeOf_append_end (runs : List (List Token)) {left : List Token}
    (h : atEnd left ∨ headIn bodyStops left) (next : List Token) :
    scopeOf (runs ++ [upTo left next]) = scopeOf runs := by
  cases hrun : upTo left next with
  | nil =>
      rw [scopeOf, leads_append]
      exact congrArg (List.foldl _ false) (List.append_nil (leads runs))
  | cons t us =>
      obtain ⟨rest, rfl⟩ : ∃ rest, left = t :: rest := by
        cases left with
        | nil => simp [upTo] at hrun
        | cons u rest =>
            have hhead : (upTo (u :: rest) next).head? = some t := by
              rw [hrun, List.head?_cons]
            rw [upTo, List.head?_take] at hhead
            split at hhead
            · cases hhead
            · exact ⟨rest, by rw [Option.some.inj hhead]⟩
      rw [scopeOf_append_cons]
      have hk : t.kind ∈ [.endOfInput, .atEnd, .atInterface,
          .atProtocol] := by
        simpa [bodyStops] using h
      simp only [List.mem_cons, List.not_mem_nil, or_false] at hk
      rcases hk with hk | hk | hk | hk <;> rw [hk] <;> rfl

/-- The member is within a nonnull scope exactly if the last mark opens
one. -/
def Recorded.ScopedBy (m : Recorded) (kinds : List TokenKind) : Prop :=
  m.inNonnullScope = true ↔ lastOf scopeMarks kinds = some .nonnullBegin

/-- The member is optional exactly if the last mark begins the optional
ones. -/
def Recorded.SectionedBy (m : Recorded) (kinds : List TokenKind) : Prop :=
  m.optional = true ↔ lastOf sectionMarks kinds = some .atOptional

lemma Recorded.scopedBy_leads {m : Recorded} {runs : List (List Token)}
    (h : m.inNonnullScope = scopeOf runs) : m.ScopedBy (leads runs) := by
  rw [Recorded.ScopedBy, h]
  exact foldl_switched_iff (by decide) (leads runs)

lemma Recorded.sectionedBy_leads {m : Recorded} {runs : List (List Token)}
    (h : m.optional = sectionOf runs) : m.SectionedBy (leads runs) := by
  rw [Recorded.SectionedBy, h]
  exact foldl_switched_iff (by decide) (leads runs)

/-! ### The parts of a class -/

/-- A property is required as it is read, and nullable if its type is. -/
lemma yields_propertyBody (inScope : Bool) :
    (propertyBody inScope).Yields fun p => p.inNonnullScope = inScope
      ∧ (typeIsNullable p.type = true → p.nullable = true)
      ∧ p.optional = false := by
  refine Yields.bind fun attributes => Yields.bind fun (_, type, marked) =>
    Yields.bind fun _ => yields_pure ⟨rfl, fun h => ?_, rfl⟩
  show (attributes.any nullableMarkers.contains || marked
    || typeIsNullable type) = true
  rw [h, Bool.or_true]

/-- A method is required as it is read, and its result nullable just if the
type of that is. -/
lemma yields_methodBody (inScope : Bool) :
    (methodBody inScope).Yields fun m => m.inNonnullScope = inScope
      ∧ m.returnNullable = typeIsNullable m.returnType
      ∧ m.optional = false := by
  refine Yields.bind fun _ => Yields.bind fun _ => Yields.ite ?_ ?_
  · intro ts m rest h
    rw [result_bind_of_ok (result_look _ ts)] at h
    cases h
  refine Yields.bind fun _ => Yields.bind fun _ => Yields.ite ?_ ?_
  all_goals
    exact Yields.bind fun _ => Yields.bind fun _ => Yields.bind fun _ =>
      yields_pure ⟨rfl, rfl, rfl⟩

/-- A member of a class stands in a run, under the marks that begin the
runs before it. -/
def ClassMember (sort : MemberSort) (before : List (List Token))
    (run : List Token) (m : Recorded) : Prop :=
  m.ReadBy sort run ∧ m.ScopedBy (leads before)

/-- What begins otherwise holds no members. -/
lemma members_readClassPart (s : Bool) {t : Token}
    (hproperty : t.kind ≠ .atProperty)
    (hmethod : ∀ onClass, t.kind ≠ signKind onClass) (ts : List Token)
    (sort : MemberSort) :
    (readClassPart s (t :: ts)).items.flatMap (ClassPart.members sort)
      = [] := by
  refine List.flatMap_eq_nil_iff.mpr fun part hpart => ?_
  rcases mem_readClassPart hpart with ⟨hk, -⟩ | ⟨onClass, -, -, hk, -⟩ | rfl
  · exact absurd hk hproperty
  · exact absurd hk (hmethod onClass)
  · rcases sort with _ | _ | _ <;> rfl

/-- What is read of a class at one place is found in its run. -/
lemma along_readClassPart (sort : MemberSort)
    {before : List (List Token)} {s : Bool} (hs : s = scopeOf before)
    (t : Token) (ts : List Token) :
    Along (ClassMember sort) before [ownRun readClassPart s (t :: ts)]
      (((readClassPart s (t :: ts)).found ClassPart.ofFailure).flatMap
        (ClassPart.members sort)) := by
  have hreport : ∀ e, (ClassPart.ofFailure e).members sort = [] := by
    rcases sort with _ | _ | _ <;> exact fun _ => rfl
  by_cases hproperty : t.kind = .atProperty
  · rw [ownRun, readClassPart_of_atProperty s hproperty]
    refine along_reading (f := ClassPart.property)
      (g := ClassPart.members sort) (onward_propertyBody s) hreport
      (fun p span rest hts hres => ?_) s
    rcases sort with _ | _ | _
    · refine .inr ⟨.property p, rfl, ⟨t, span, rest, s, .property p, rfl,
        hproperty, ?_, rfl⟩, Recorded.scopedBy_leads ?_⟩
      · exact (result_bind_of_ok hres).trans (result_pure ..)
      · exact (yields_propertyBody s _ _ _ hres).1.trans hs
    · exact .inl rfl
    · exact .inl rfl
  by_cases hmethod : ∃ onClass, t.kind = signKind onClass
  · obtain ⟨onClass, hsign⟩ := hmethod
    rw [ownRun, readClassPart_of_sign s hsign]
    refine along_reading (f := methodPart onClass)
      (g := ClassPart.members sort) (onward_methodBody s) hreport
      (fun m span rest hts hres => ?_) s
    by_cases hsort : sort = .method onClass
    · subst hsort
      refine .inr ⟨.method m, by cases onClass <;> rfl, ⟨t, span, rest, s,
        .method m, rfl, hsign, ?_, rfl⟩, Recorded.scopedBy_leads ?_⟩
      · exact (result_bind_of_ok hres).trans (result_pure ..)
      · exact (yields_methodBody s _ _ _ hres).1.trans hs
    · left
      rcases sort with _ | _ | _ <;> cases onClass <;>
        simp_all [methodPart, ClassPart.members]
  · rw [flatMap_found (g := ClassPart.members sort) hreport,
      members_readClassPart s hproperty (fun c h => hmethod ⟨c, h⟩)]
    exact .passAll before _

/-- The members of a class are found in the runs of its body. -/
lemma along_classBody (sort : MemberSort) {before : List (List Token)}
    {s : Bool} (hs : s = scopeOf before) (ts : List Token) :
    Along (ClassMember sort) before (bodyRuns readClassPart s ts)
        ((readAll bodyStops readClassPart ClassPart.ofFailure s
          ts).1.flatMap (ClassPart.members sort))
      ∧ (readAll bodyStops readClassPart ClassPart.ofFailure s ts).2.1
        = scopeOf (before ++ bodyRuns readClassPart s ts) := by
  have hstep : ∀ before s t ts, t.kind ≠ .endOfInput →
      headIn bodyStops (t :: ts) = false → s = scopeOf before →
      (readClassPart s (t :: ts)).state
        = scopeOf (before ++ [ownRun readClassPart s (t :: ts)]) := by
    intro before s t ts hk hnot hs
    obtain ⟨us, hrun⟩ := allOrderly_readClassPart.exists_ownRun s hk hnot
    rw [hrun, scopeOf_append_cons, state_readClassPart, hs]
  exact ⟨along_readAll (P := fun runs s => s = scopeOf runs) hstep
      (fun _ s t ts _ _ hs => along_readClassPart sort hs t ts) s ts before
      hs,
    holds_readAll (P := fun runs s => s = scopeOf runs) hstep s ts before
      hs⟩

/-! ### The parts of a protocol -/

/-- Some of the runs stand behind the head of the protocol with the name,
and no other protocol begins in them. -/
def BehindProtocol (name : String) (runs inner : List (List Token)) :
    Prop :=
  ∃ outer t u us, runs = outer ++ (t :: u :: us) :: inner
    ∧ t.kind = .atProtocol ∧ u.kind = .identifier ∧ u.value = name
    ∧ .atProtocol ∉ leads inner

lemma BehindProtocol.append_cons {name : String}
    {runs inner : List (List Token)} (h : BehindProtocol name runs inner)
    {t : Token} (hk : t.kind ≠ .atProtocol) (us : List Token) :
    BehindProtocol name (runs ++ [t :: us]) (inner ++ [t :: us]) := by
  obtain ⟨outer, lead, word, row, rfl, hlead, hword, hname, hinner⟩ := h
  refine ⟨outer, lead, word, row, by simp, hlead, hword, hname, ?_⟩
  simp [hinner, hk.symm]

/-- The state within the protocol with the name is what the marks that begin
the runs say: the scope marks of all, and the section marks of those behind
the head of the protocol. -/
def ProtocolState.Follows (s : ProtocolState) (name : String)
    (runs : List (List Token)) : Prop :=
  s.inScope = scopeOf runs
    ∧ ∃ inner, BehindProtocol name runs inner
      ∧ s.optional = sectionOf inner

/-- A member of the protocol with the name stands in a run.  It is under
the scope marks that begin the runs before it, and under the section marks
that begin those behind the head of its protocol. -/
def ProtocolMember (sort : MemberSort) (name : String)
    (before : List (List Token)) (run : List Token) (m : Recorded) : Prop :=
  m.ReadBy sort run ∧ m.ScopedBy (leads before)
    ∧ ∃ inner, BehindProtocol name before inner
      ∧ m.SectionedBy (leads inner)

/-- A method as a part of a protocol. -/
def protocolMethod (onClass : Bool) (m : Method) : ProtocolPart :=
  if onClass then .classMethod m else .instanceMethod m

lemma readProtocolPart_of_atProperty (s : ProtocolState) {t : Token}
    (hk : t.kind = .atProperty) (ts : List Token) :
    readProtocolPart s (t :: ts)
      = partReading (do
          let p ← propertyBody s.inScope
          return .property { p with optional := s.optional }) s ts := by
  rw [readProtocolPart, hk]

lemma readProtocolPart_of_sign (s : ProtocolState) {onClass : Bool}
    {t : Token} (hk : t.kind = signKind onClass) (ts : List Token) :
    readProtocolPart s (t :: ts)
      = partReading (do
          let m ← methodBody s.inScope
          return protocolMethod onClass { m with optional := s.optional })
        s ts := by
  cases onClass with
  | false =>
      have hk : t.kind = .minus := hk
      rw [readProtocolPart, hk]
      rfl
  | true =>
      have hk : t.kind = .plus := hk
      rw [readProtocolPart, hk]
      rfl

/-- What begins otherwise holds no members. -/
lemma members_readProtocolPart (s : ProtocolState) {t : Token}
    (hproperty : t.kind ≠ .atProperty)
    (hmethod : ∀ onClass, t.kind ≠ signKind onClass) (ts : List Token)
    (optional : Bool) (sort : MemberSort) :
    (readProtocolPart s (t :: ts)).items.flatMap
      (ProtocolPart.members optional sort) = [] := by
  rw [readProtocolPart]
  split
  · rfl
  · rfl
  · rename_i h
    exact absurd h hproperty
  · rename_i h
    exact absurd h (hmethod false)
  · rename_i h
    exact absurd h (hmethod true)
  · refine List.flatMap_eq_nil_iff.mpr (List.forall_mem_map.mpr ?_)
    rcases sort with _ | _ | _ <;> exact fun _ _ => rfl
  · rfl

section ProtocolParts

variable {name : String} {before : List (List Token)} {s : ProtocolState}

/-- A member that is read in the body of a protocol is found in its run. -/
lemma protocolMember_of_body {sort : MemberSort} {t : Token}
    {span rest : List Token} {r : Recorded} (hk : t.kind = sort.lead)
    (hread : (sort.body s.inScope).result (span ++ rest)
      = (.ok r, rest))
    (hflag : r.inNonnullScope = s.inScope) (hs : s.Follows name before) :
    ProtocolMember sort name before (t :: span)
      (r.withOptional s.optional) := by
  obtain ⟨hscope, inner, hinner, hsection⟩ := hs
  have hoptional : (r.withOptional s.optional).optional = s.optional := by
    cases r <;> rfl
  refine ⟨⟨t, span, rest, s.inScope, r, rfl, hk, hread,
      hoptional.symm ▸ rfl⟩, Recorded.scopedBy_leads ?_, inner, hinner,
    Recorded.sectionedBy_leads (hoptional.trans hsection)⟩
  rw [← hscope, ← hflag]
  cases r <;> rfl

/-- What is read of a protocol at one place is found in its run. -/
lemma along_readProtocolPart (optional : Bool) (sort : MemberSort)
    (hs : s.Follows name before) (t : Token) (ts : List Token) :
    Along (ProtocolMember sort name) before
      [ownRun readProtocolPart s (t :: ts)]
      (((readProtocolPart s (t :: ts)).found
        ProtocolPart.ofFailure).flatMap
          (ProtocolPart.members optional sort)) := by
  have hreport : ∀ e,
      (ProtocolPart.ofFailure e).members optional sort = [] := by
    rcases sort with _ | _ | _ <;> exact fun _ => rfl
  by_cases hproperty : t.kind = .atProperty
  · rw [ownRun, readProtocolPart_of_atProperty s hproperty, partReading]
    refine along_reading (f := fun part => part)
      (g := ProtocolPart.members optional sort)
      ((onward_propertyBody _).bind fun _ => onward_pure _) hreport
      (fun part span rest hts hres => ?_) s
    obtain ⟨p, mid, hp, hpure⟩ := exists_of_result_bind hres
    obtain ⟨rfl, rfl⟩ := eq_of_result_pure hpure
    rcases sort with _ | _ | _
    · by_cases hsame : s.optional = optional
      · refine .inr ⟨_, if_pos hsame, protocolMember_of_body
          (r := .property p) hproperty
          ((result_bind_of_ok hp).trans (result_pure ..))
          (yields_propertyBody _ _ _ _ hp).1 hs⟩
      · exact .inl (if_neg hsame)
    · exact .inl rfl
    · exact .inl rfl
  by_cases hmethod : ∃ onClass, t.kind = signKind onClass
  · obtain ⟨onClass, hsign⟩ := hmethod
    rw [ownRun, readProtocolPart_of_sign s hsign, partReading]
    refine along_reading (f := fun part => part)
      (g := ProtocolPart.members optional sort)
      ((onward_methodBody _).bind fun _ => onward_pure _) hreport
      (fun part span rest hts hres => ?_) s
    obtain ⟨m, mid, hm, hpure⟩ := exists_of_result_bind hres
    obtain ⟨rfl, rfl⟩ := eq_of_result_pure hpure
    by_cases hsort : sort = .method onClass ∧ s.optional = optional
    · obtain ⟨rfl, hsame⟩ := hsort
      refine .inr ⟨_, ?_, protocolMember_of_body (r := .method m) hsign
        ((result_bind_of_ok hm).trans (result_pure ..))
        (yields_methodBody _ _ _ _ hm).1 hs⟩
      cases onClass <;> exact if_pos hsame
    · left
      rcases sort with _ | _ | _ <;> cases onClass <;>
        simp_all [protocolMethod, ProtocolPart.members]
  · rw [flatMap_found (g := ProtocolPart.members optional sort) hreport,
      members_readProtocolPart s hproperty (fun c h => hmethod ⟨c, h⟩)]
    exact .passAll before _

/-- The state behind a part of a protocol still follows the marks. -/
lemma follows_readProtocolPart (hs : s.Follows name before) {t : Token}
    (hk : t.kind ≠ .atProtocol) (us ts : List Token) :
    (readProtocolPart s (t :: ts)).state.Follows name
      (before ++ [t :: us]) := by
  obtain ⟨hscope, inner, hinner, hsection⟩ := hs
  rw [state_readProtocolPart]
  refine ⟨?_, _, hinner.append_cons hk us, ?_⟩
  · rw [scopeOf_append_cons, hscope]
  · rw [sectionOf_append_cons, hsection]

/-- The members of a protocol are found in the runs of its body. -/
lemma along_protocolBody (optional : Bool) (sort : MemberSort)
    (hs : s.Follows name before) (ts : List Token) :
    Along (ProtocolMember sort name) before (bodyRuns readProtocolPart s ts)
        ((readAll bodyStops readProtocolPart ProtocolPart.ofFailure s
          ts).1.flatMap (ProtocolPart.members optional sort))
      ∧ (readAll bodyStops readProtocolPart ProtocolPart.ofFailure s
          ts).2.1.Follows name
        (before ++ bodyRuns readProtocolPart s ts) := by
  have hstep : ∀ before s t ts, t.kind ≠ .endOfInput →
      headIn bodyStops (t :: ts) = false → s.Follows name before →
      (readProtocolPart s (t :: ts)).state.Follows name
        (before ++ [ownRun readProtocolPart s (t :: ts)]) := by
    intro before s t ts hk hnot hs
    obtain ⟨us, hrun⟩ := allOrderly_readProtocolPart.exists_ownRun s hk hnot
    have hproto : t.kind ≠ .atProtocol := by
      intro h
      simp [bodyStops, h] at hnot
    rw [hrun]
    exact follows_readProtocolPart hs hproto us ts
  exact ⟨along_readAll (P := fun runs s => s.Follows name runs) hstep
      (fun _ s t ts _ _ hs => along_readProtocolPart optional sort hs t ts) s
      ts before hs,
    holds_readAll (P := fun runs s => s.Follows name runs) hstep s ts before
      hs⟩

end ProtocolParts

/-! ### The declarations of a header -/

/-- The members of the class that an item is. -/
def Item.classMembers (sort : MemberSort) : Item → List Recorded
  | .interface i => i.members sort
  | _ => []

/-- The members of the protocol that an item is, each beside it. -/
def Item.protocolMembers (optional : Bool) (sort : MemberSort) :
    Item → List (Protocol × Recorded)
  | .proto p => (p.members optional sort).map (p, ·)
  | _ => []

/-- The members of the classes of a header. -/
def Header.classMembers (h : Header) (sort : MemberSort) : List Recorded :=
  h.interfaces.flatMap (·.members sort)

/-- The optional or the required members of the protocols of a header, each
beside its protocol. -/
def Header.protocolMembers (h : Header) (optional : Bool)
    (sort : MemberSort) : List (Protocol × Recorded) :=
  h.protocols.flatMap fun p => (p.members optional sort).map (p, ·)

lemma flatMap_classMembers (sort : MemberSort) (items : List Item) :
    items.flatMap (Item.classMembers sort)
      = (items.filterMap Item.interface?).flatMap (·.members sort) := by
  induction items with
  | nil => rfl
  | cons item items ih =>
      rw [List.flatMap_cons, ih]
      cases item <;> rfl

lemma flatMap_protocolMembers (optional : Bool) (sort : MemberSort)
    (items : List Item) :
    items.flatMap (Item.protocolMembers optional sort)
      = (items.filterMap Item.proto?).flatMap fun p =>
        (p.members optional sort).map (p, ·) := by
  induction items with
  | nil => rfl
  | cons item items ih =>
      rw [List.flatMap_cons, ih]
      cases item <;> rfl

/-- A class holds no protocol. -/
lemma filterMap_proto?_classItems (head : Interface)
    (parts : List ClassPart) :
    (classItems head parts).filterMap Item.proto? = [] := by
  rw [classItems, List.filterMap_cons_none rfl, List.filterMap_map]
  exact List.filterMap_eq_nil_iff.mpr fun _ _ => rfl

section Items

variable {before : List (List Token)} {s : Bool} {t : Token}
  {ts start : List Token}

/-- Behind the head of a class the scope is what it was. -/
lemma scopeOf_classHead (hs : s = scopeOf before)
    (hk : t.kind = .atInterface) (hstart : Reaches ts start) :
    s = scopeOf (before ++ [upTo (t :: ts) start]) := by
  obtain ⟨us, hhead, -⟩ := exists_upTo_cons t hstart
  rw [hhead, scopeOf_append_cons, ← hs, hk]
  rfl

/-- Behind the head of a protocol, too, and its members are required. -/
lemma follows_protocolHead (hs : s = scopeOf before)
    (hk : t.kind = .atProtocol) {name : Token} {us : List Token}
    (hname : name.kind = .identifier) (hstart : Reaches us start) :
    ProtocolState.Follows { inScope := s } name.value
      (before ++ [upTo (t :: name :: us) start]) := by
  obtain ⟨head, rfl⟩ := hstart.suffix
  rw [show upTo (t :: name :: (head ++ start)) start = t :: name :: head from
    upTo_append_right (t :: name :: head) start]
  refine ⟨?_, [], ⟨before, t, name, head, rfl, hk, hname, rfl, by simp⟩, rfl⟩
  rw [scopeOf_append_cons, ← hs, hk]
  rfl

/-- The scope behind a declaration is what its runs leave. -/
lemma state_eq_scopeOf (hk : t.kind ≠ .endOfInput)
    (hs : s = scopeOf before) :
    (readItem s (t :: ts)).state
      = scopeOf (before ++ itemRuns s (t :: ts)) := by
  cases itemRead s t ts with
  | @interface _ start hkind hstart hread hruns =>
      have hbody := (along_classBody .property
        (scopeOf_classHead hs hkind hstart) start).2
      rw [hruns, containerRuns, List.append_cons, ← List.append_assoc,
        scopeOf_append_end _ (readAll_stops _ _), ← hbody, hread]
      exact state_closeContainer _ _ _
  | @proto _ _ start _ hkind hts hname hstart hread hruns =>
      subst hts
      have hbody := (along_protocolBody true .property
        (follows_protocolHead hs hkind hname hstart) start).2.1
      rw [hruns, containerRuns, List.append_cons, ← List.append_assoc,
        scopeOf_append_end _ (readAll_stops _ _), ← hbody, hread]
      exact state_closeContainer _ _ _
  | plain _ _ hstate hruns =>
      obtain ⟨us, hrun⟩ :=
        allOrderly_readItem.exists_ownRun s hk (not_headIn_nil (t :: ts))
      rw [hstate, hruns, hrun, scopeOf_append_cons, hs]

/-- What is found in the runs of a body is found in those of its
container. -/
lemma along_containerRuns {σ α β : Type}
    {R : List (List Token) → List Token → β → Prop}
    {one : σ → List Token → Reading σ α} {report : Failure → α} {s : σ}
    {ts start next : List Token} {bs : List β}
    (h : Along R (before ++ [upTo ts start]) (bodyRuns one s start) bs) :
    Along R before (containerRuns one report s ts start next) bs := by
  have := h.append (.passAll _
    [upTo (readAll bodyStops one report s start).2.2 next])
  rw [List.append_nil] at this
  exact .pass this

/-- The members of a class are found in the runs of its declaration. -/
lemma along_itemClass (sort : MemberSort) (hs : s = scopeOf before)
    (t : Token) (ts : List Token) :
    Along (ClassMember sort) before (itemRuns s (t :: ts))
      (((readItem s (t :: ts)).found Item.ofFailure).flatMap
        (Item.classMembers sort)) := by
  rw [flatMap_found (g := Item.classMembers sort) (fun _ => rfl),
    flatMap_classMembers]
  cases itemRead s t ts with
  | interface hkind hstart hread hruns =>
      rw [hruns, hread, items_closeContainer,
        filterMap_interface?_classItems, List.flatMap_singleton,
        Interface.members_ofParts]
      exact along_containerRuns
        (along_classBody sort (scopeOf_classHead hs hkind hstart) _).1
  | proto _ _ _ _ hread _ =>
      rw [hread, items_closeContainer, interface?_protocolItems]
      exact .passAll before _
  | plain hclass _ _ _ =>
      rw [hclass]
      exact .passAll before _

/-- So are those of a protocol. -/
lemma along_itemProtocol (optional : Bool) (sort : MemberSort)
    (hs : s = scopeOf before) (t : Token) (ts : List Token) :
    Along (fun before run pm => ProtocolMember sort pm.1.name before run pm.2)
      before (itemRuns s (t :: ts))
      (((readItem s (t :: ts)).found Item.ofFailure).flatMap
        (Item.protocolMembers optional sort)) := by
  rw [flatMap_found (g := Item.protocolMembers optional sort)
    (fun _ => rfl), flatMap_protocolMembers]
  cases itemRead s t ts with
  | interface _ _ hread _ =>
      rw [hread, items_closeContainer, filterMap_proto?_classItems]
      exact .passAll before _
  | proto hkind hts hname hstart hread hruns =>
      subst hts
      rw [hruns, hread, items_closeContainer,
        filterMap_proto?_protocolItems, List.flatMap_singleton,
        Protocol.members_ofParts]
      exact along_containerRuns
        ((along_protocolBody optional sort
          (follows_protocolHead hs hkind hname hstart) _).1.map
            fun _ _ _ h => h)
  | plain _ hproto _ _ =>
      rw [hproto]
      exact .passAll before _

end Items

/-! ### Whole headers -/

/-- The members of the classes of a header are found in its runs. -/
lemma along_classMembers (rules : MacroRules) (file text : String)
    (sort : MemberSort) :
    Along (ClassMember sort) [] (headerRuns (tokenize rules text))
      ((readHeader rules file text).classMembers sort) := by
  have hall : Along (ClassMember sort) []
      (headerRuns (tokenize rules text))
      ((readAll [] readItem Item.ofFailure false
        (tokenize rules text)).1.flatMap (Item.classMembers sort)) :=
    along_readAll (P := fun runs s => s = scopeOf runs)
      (fun _ _ _ _ hk _ hs => state_eq_scopeOf hk hs)
      (fun _ _ t ts _ _ hs => along_itemClass sort hs t ts) false _ [] rfl
  rw [flatMap_classMembers] at hall
  rw [Header.classMembers, readHeader, readTokens,
    (endsOnce_tokenize rules text).closeTokens_eq]
  exact hall

/-- So are those of its protocols. -/
lemma along_protocolMembers (rules : MacroRules) (file text : String)
    (optional : Bool) (sort : MemberSort) :
    Along (fun before run pm => ProtocolMember sort pm.1.name before run pm.2)
      [] (headerRuns (tokenize rules text))
      ((readHeader rules file text).protocolMembers optional sort) := by
  have hall : Along
      (fun before run pm => ProtocolMember sort pm.1.name before run pm.2)
      [] (headerRuns (tokenize rules text))
      ((readAll [] readItem Item.ofFailure false
        (tokenize rules text)).1.flatMap
          (Item.protocolMembers optional sort)) :=
    along_readAll (P := fun runs s => s = scopeOf runs)
      (fun _ _ _ _ hk _ hs => state_eq_scopeOf hk hs)
      (fun _ _ t ts _ _ hs => along_itemProtocol optional sort hs t ts) false
      _ [] rfl
  rw [flatMap_protocolMembers] at hall
  rw [Header.protocolMembers, readHeader, readTokens,
    (endsOnce_tokenize rules text).closeTokens_eq]
  exact hall

/-- Every mark counts.  A member of a class is within a nonnull scope
exactly if the last scope mark before its first token, wherever that mark
stands, opens one; so is a member of a protocol, and it is optional exactly
if the last section mark between the name of its protocol and its first
token begins the optional ones. -/
def MarksCount (rules : MacroRules) (file text : String) : Prop :=
  (∀ sort, ∀ m ∈ (readHeader rules file text).classMembers sort,
      ∃ before run after, tokenize rules text = before ++ (run ++ after)
        ∧ m.ReadBy sort run ∧ m.ScopedBy (before.map (·.kind)))
    ∧ ∀ optional sort,
      ∀ pm ∈ (readHeader rules file text).protocolMembers optional sort,
      ∃ outer t u inner run after,
        tokenize rules text = (outer ++ t :: u :: inner) ++ (run ++ after)
        ∧ t.kind = .atProtocol ∧ u.kind = .identifier
        ∧ u.value = pm.1.name ∧ pm.2.ReadBy sort run
        ∧ pm.2.ScopedBy ((outer ++ t :: u :: inner).map (·.kind))
        ∧ pm.2.SectionedBy (inner.map (·.kind))

section MarksCount

variable {rules : MacroRules} {file text : String}

/-- Where marks only begin runs, those that do are all. -/
lemma marksCount_of_onlyLead
    (hscope : OnlyLead scopeMarks (headerRuns (tokenize rules text)))
    (hsection : OnlyLead sectionMarks (headerRuns (tokenize rules text))) :
    MarksCount rules file text := by
  obtain ⟨e, hflat, -⟩ :=
    flatten_headerRuns (endsOnce_tokenize rules text)
  constructor
  · intro sort m hm
    obtain ⟨before, run, after, hruns, hread, hscoped⟩ :=
      (along_classMembers rules file text sort).exists_of_mem hm
    rw [List.nil_append] at hscoped
    rw [hruns] at hflat hscope
    have hlast := hscope.append_left.lastOf_flatten (List.forall_mem_nil _)
    refine ⟨before.flatten, run, after.flatten ++ [e], ?_, hread, ?_⟩
    · rw [← hflat]
      simp
    · rwa [Recorded.ScopedBy, ← hlast] at hscoped
  · intro optional sort pm hpm
    obtain ⟨before, run, after, hruns, hread, hscoped, inner, hbehind,
      hsectioned⟩ :=
      (along_protocolMembers rules file text optional sort).exists_of_mem hpm
    rw [List.nil_append] at hscoped hbehind
    obtain ⟨outer, t, u, us, rfl, ht, hu, hname, -⟩ := hbehind
    rw [hruns] at hflat hscope hsection
    have hlast := hscope.append_left.lastOf_flatten (List.forall_mem_nil _)
    have hhead := hsection.append_left.append_right
    have hinner : OnlyLead sectionMarks inner :=
      fun run hrun => hhead run (List.mem_cons_of_mem _ hrun)
    have hsections := hinner.lastOf_flatten fun v (hv : v ∈ us) =>
      hhead _ List.mem_cons_self v (List.mem_cons_of_mem u hv)
    refine ⟨outer.flatten, t, u, us ++ inner.flatten, run,
      after.flatten ++ [e], ?_, ht, hu, hname, hread, ?_, ?_⟩
    · rw [← hflat]
      simp
    · rw [Recorded.ScopedBy, ← hlast] at hscoped
      simpa [Recorded.ScopedBy] using hscoped
    · rwa [Recorded.SectionedBy, ← hsections] at hsectioned

end MarksCount

/-- The tokens of a text before its end are shared out into runs.  Each
member of a class or a protocol is read from one of them, in the order of
the text.  It is within a nonnull scope exactly if the last scope mark
among the first tokens of the runs before opens one; and a member of a
protocol is optional exactly if the last section mark among the first
tokens of the runs behind the head of the protocol begins the optional
ones.  Where marks stand nowhere else, every mark counts. -/
theorem flags_follow_leads (rules : MacroRules) (file text : String) :
    (∃ e, (headerRuns (tokenize rules text)).flatten ++ [e]
        = tokenize rules text ∧ e.kind = .endOfInput)
      ∧ (∀ sort, Along (ClassMember sort) []
        (headerRuns (tokenize rules text))
        ((readHeader rules file text).classMembers sort))
      ∧ (∀ optional sort,
        Along (fun before run pm =>
            ProtocolMember sort pm.1.name before run pm.2) []
          (headerRuns (tokenize rules text))
          ((readHeader rules file text).protocolMembers optional sort))
      ∧ (OnlyLead scopeMarks (headerRuns (tokenize rules text)) →
        OnlyLead sectionMarks (headerRuns (tokenize rules text)) →
        MarksCount rules file text) :=
  ⟨flatten_headerRuns (endsOnce_tokenize rules text),
    along_classMembers rules file text, along_protocolMembers rules file text,
    marksCount_of_onlyLead⟩

/-- A header with a scope and an optional section. -/
def queueText : String :=
  "\n".intercalate ["NS_ASSUME_NONNULL_BEGIN", "@protocol Queue <Base>",
    "- (id)first;", "@optional", "@property (copy) NSString *name;", "@end",
    "NS_ASSUME_NONNULL_END", "@interface Box", "- (id)open;", "@end"]

theorem flags_follow_leads_queue :
    OnlyLead scopeMarks (headerRuns (tokenize {} queueText))
      ∧ OnlyLead sectionMarks (headerRuns (tokenize {} queueText))
      ∧ (((readHeader {} "" queueText).protocolMembers true .property).map
          fun pm => (pm.2.inNonnullScope, pm.2.optional)) = [(true, true)]
      ∧ (((readHeader {} "" queueText).classMembers
          (.method false)).map (·.inNonnullScope)) = [false]
      ∧ MarksCount {} "" queueText := by
  -- one computation, in which the text is read only once
  have hread : OnlyLead scopeMarks (headerRuns (tokenize {} queueText))
      ∧ OnlyLead sectionMarks (headerRuns (tokenize {} queueText))
      ∧ (((readHeader {} "" queueText).protocolMembers true .property).map
          fun pm => (pm.2.inNonnullScope, pm.2.optional)) = [(true, true)]
      ∧ (((readHeader {} "" queueText).classMembers
          (.method false)).map (·.inNonnullScope)) = [false] := by
    rw [queueText, readHeader, tokenize_intercalate]
    decide +kernel
  obtain ⟨hscope, hsection, hoptional, hopen⟩ := hread
  exact ⟨hscope, hsection, hoptional, hopen,
    (flags_follow_leads {} "" queueText).2.2.2 hscope hsection⟩

/-- A class with a scope mark among its instance variables. -/
def boxText : String :=
  "\n".intercalate ["@interface Box \x7b", "NS_ASSUME_NONNULL_BEGIN", "\x7d",
    "- (id)open;", "@end"]

/-- Such a mark does not count. -/
theorem not_marksCount_box : ¬ MarksCount {} "" boxText := by
  intro h
  -- only one token is a minus, and the mark is the last one before it
  have hbox : (readHeader {} "" boxText).classMembers (.method false)
        = [.method { selector := "open", returnType := "id" }]
      ∧ (tokenize {} boxText).length = 13
      ∧ ∀ i < 13, ((tokenize {} boxText)[i]?.map (·.kind)) = some .minus →
        lastOf scopeMarks (((tokenize {} boxText).take i).map (·.kind))
          = some .nonnullBegin := by
    decide +kernel
  obtain ⟨hmembers, hlength, hplaces⟩ := hbox
  have hmem : Recorded.method { selector := "open", returnType := "id" }
      ∈ (readHeader {} "" boxText).classMembers (.method false) :=
    hmembers ▸ List.mem_singleton_self _
  obtain ⟨before, run, after, htext, hread, hscoped⟩ := h.1 _ _ hmem
  obtain ⟨t, span, -, -, -, rfl, hk, -, -⟩ := hread
  have hat : (tokenize {} boxText)[before.length]?.map (·.kind)
      = some .minus := by
    have hk : t.kind = .minus := hk
    simp [htext, hk]
  have hlt : before.length < 13 := by
    rw [← hlength, htext]
    simp
  have hlast := hplaces before.length hlt hat
  rw [htext, List.take_left] at hlast
  exact absurd (hscoped.mpr hlast) (by decide)

end HeaderBinding
