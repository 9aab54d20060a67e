/-
Productions on texts: what a production reads of a printed text.

* `ReadsText`: from the tokens of a text the production takes a value and
  leaves the tokens of what follows; `ReadsText.bind` puts two behind each
  other, `readsText_repeated` many;
* `readsText_accept`, `ReadsText.behind_expect`, ...: single marks and
  names;
* `TypeReads`: a type that is read again in parentheses;
  `typeReads_of_typeInParens` has it for every type that was read of
  such tokens once, and `readsText_typeText` the same for types that a
  name follows.
-/
import HeaderBinding.Proofs.Cursor.Alike
import HeaderBinding.Proofs.Cursor.Grammar

namespace HeaderBinding

open Production

variable {rules : MacroRules} {α β : Type}

/-! ### The tokens of a text -/

/-- The tokens of a text and the end, without their places. -/
def rowOf (rules : MacroRules) (cs : List Char) : List Face :=
  facesOf rules cs ++ [(.endOfInput, "")]

lemma rowOf_blank {c : Char} (hc : isBlank c = true) (cs : List Char) :
    rowOf rules (c :: cs) = rowOf rules cs := by
  rw [rowOf, facesOf_blank hc, ← rowOf]

/-- A text begins with one of the characters. -/
def HeadIn (ds after : List Char) : Prop :=
  ∃ c ∈ after.head?, c ∈ ds

lemma HeadIn.cons {c : Char} {ds : List Char} (h : c ∈ ds)
    (cs : List Char) : HeadIn ds (c :: cs) :=
  ⟨c, rfl, h⟩

lemma HeadIn.imp {ds es after : List Char} (h : HeadIn ds after)
    (hs : ds.Forall (· ∈ es)) : HeadIn es after := by
  obtain ⟨c, hc, hmem⟩ := h
  exact ⟨c, hc, List.forall_iff_forall_mem.mp hs c hmem⟩

lemma HeadIn.endsToken {ds after : List Char} (h : HeadIn ds after)
    (hs : ds.Forall (· ∈ breaks)) : EndsToken after := by
  obtain ⟨c, hc, hmem⟩ := h
  intro d hd
  exact List.forall_iff_forall_mem.mp hs d
    (Option.some.inj (hc.symm.trans hd) ▸ hmem)

/-- The tokens of a text that begins with a mark. -/
lemma exists_cons_of_mark {c : Char} (hc : c ∈ marks) {cs : List Char}
    {ts : List Token} (h : ts.map Token.face = rowOf rules (c :: cs)) :
    ∃ t us, ts = t :: us ∧ t.kind = punctuationKind c
      ∧ us.map Token.face = rowOf rules cs := by
  rw [rowOf, facesOf_mark hc] at h
  obtain ⟨t, us, rfl, ht, hus⟩ := List.map_eq_cons_iff.mp h
  exact ⟨t, us, rfl, congrArg Prod.fst ht, hus⟩

lemma exists_cons_of_mark_head {ds cs : List Char} {ts : List Token}
    (hds : ds.Forall (· ∈ marks)) (h : HeadIn ds cs)
    (hts : ts.map Token.face = rowOf rules cs) :
    ∃ c ∈ ds, ∃ t us, ts = t :: us ∧ t.kind = punctuationKind c := by
  obtain ⟨c, hc, hmem⟩ := h
  obtain ⟨cs, rfl⟩ := List.head?_eq_some_iff.mp hc
  obtain ⟨t, us, rfl, ht, -⟩ :=
    exists_cons_of_mark (List.forall_iff_forall_mem.mp hds c hmem) hts
  exact ⟨c, hmem, t, us, rfl, ht⟩

/-- The tokens of a text that begins with a word. -/
lemma exists_cons_of_readable {face : Face} (hf : Readable rules face)
    {cs : List Char} (hcs : EndsToken cs) {ts : List Token}
    (h : ts.map Token.face = rowOf rules (face.2.toList ++ cs)) :
    ∃ t us, ts = t :: us ∧ t.face = face
      ∧ us.map Token.face = rowOf rules cs := by
  rw [rowOf, hf.facesOf_append (.inr hcs)] at h
  obtain ⟨t, us, rfl, ht, hus⟩ := List.map_eq_cons_iff.mp h
  exact ⟨t, us, rfl, ht, hus⟩

/-! ### Reading texts -/

/-- From the tokens of the text the production takes the value, and leaves
the tokens of what stands behind, wherever that may follow. -/
def ReadsText (rules : MacroRules) (p : Production α) (cs : List Char)
    (a : α) (follow : List Char → Prop) : Prop :=
  ∀ after ts, follow after → ts.map Token.face = rowOf rules (cs ++ after) →
    ∃ rest, p.result ts = (.ok a, rest)
      ∧ rest.map Token.face = rowOf rules after

namespace ReadsText

variable {p : Production α} {k : α → Production β} {cs ds : List Char}
variable {a : α} {b : β} {follow follow' : List Char → Prop}

protected lemma pure : ReadsText rules (pure a : Production α) [] a follow :=
  fun _ ts _ hts => ⟨ts, rfl, hts⟩

lemma imp (h : ReadsText rules p cs a follow)
    (hf : ∀ after, follow' after → follow after) :
    ReadsText rules p cs a follow' :=
  fun after ts hafter hts => h after ts (hf after hafter) hts

/-- One production behind another. -/
lemma bind (hp : ReadsText rules p cs a follow)
    (hk : ReadsText rules (k a) ds b follow')
    (h : ∀ after, follow' after → follow (ds ++ after)) :
    ReadsText rules (p >>= k) (cs ++ ds) b follow' := by
  intro after ts hafter hts
  rw [List.append_assoc] at hts
  obtain ⟨mid, hmid, hrow⟩ := hp _ ts (h after hafter) hts
  obtain ⟨rest, hrest, hlast⟩ := hk after mid hafter hrow
  exact ⟨rest, (result_bind_of_ok hmid).trans hrest, hlast⟩

/-- A production behind which nothing more is read. -/
lemma bind_nil (hp : ReadsText rules p cs a follow)
    (hk : ReadsText rules (k a) [] b follow) :
    ReadsText rules (p >>= k) cs b follow :=
  List.append_nil cs ▸ hp.bind hk fun _ h => h

/-- A production and what is made of its value. -/
lemma map (f : α → β) (hp : ReadsText rules p cs a follow) :
    ReadsText rules (p >>= fun a => pure (f a)) cs (f a) follow :=
  hp.bind_nil .pure

/-- A space in front does not count. -/
lemma blank (h : ReadsText rules p cs a follow) :
    ReadsText rules p (' ' :: cs) a follow := by
  intro after ts hafter hts
  rw [List.cons_append, rowOf_blank (by decide)] at hts
  exact h after ts hafter hts

lemma thenBranch {q : Production α} {c : Prop} [Decidable c] (hc : c)
    (h : ReadsText rules p cs a follow) :
    ReadsText rules (if c then p else q) cs a follow := by
  rwa [if_pos hc]

lemma elseBranch {q : Production α} {c : Prop} [Decidable c] (hc : ¬c)
    (h : ReadsText rules q cs a follow) :
    ReadsText rules (if c then p else q) cs a follow := by
  rwa [if_neg hc]

/-- A look at the tokens that shows what it should. -/
lemma behind_look {f : List Token → α}
    (hf : ∀ after ts, follow after →
      ts.map Token.face = rowOf rules (cs ++ after) → f ts = a)
    (h : ReadsText rules (k a) cs b follow) :
    ReadsText rules (look f >>= k) cs b follow := by
  intro after ts hafter hts
  rw [result_bind_of_ok (result_look f ts), hf after ts hafter hts]
  exact h after ts hafter hts

/-- A token that is read whatever it is. -/
lemma behind_advance {k : Token → Production β} {kind : TokenKind}
    {word : String} (hf : Readable rules (kind, word))
    (hend : kind ≠ .endOfInput)
    (hk : ∀ t, t.value = word → ReadsText rules (k t) cs b follow)
    (hcs : ∀ after, follow after → EndsToken (cs ++ after)) :
    ReadsText rules (advance >>= k) (word.toList ++ cs) b follow := by
  intro after ts hafter hts
  rw [List.append_assoc] at hts
  obtain ⟨t, us, rfl, ht, hus⟩ :=
    exists_cons_of_readable hf (hcs after hafter) hts
  have hkind : t.kind = kind := congrArg Prod.fst ht
  rw [result_bind_of_ok (result_advance _), step_cons (hkind ▸ hend),
    nextToken_cons]
  exact hk t (congrArg Prod.snd ht) after us hafter hus

/-- A mark that is due in front. -/
lemma behind_expect {q : Production α} {c : Char} {kind : TokenKind}
    {due : Expectation} (hc : c ∈ marks) (hk : punctuationKind c = kind)
    (hend : kind ≠ .endOfInput) (h : ReadsText rules q cs a follow) :
    ReadsText rules (expect kind due >>= fun _ => q) (c :: cs) a follow := by
  intro after ts hafter hts
  obtain ⟨t, us, rfl, ht, hus⟩ := exists_cons_of_mark hc hts
  rw [result_bind_of_ok (result_expect_cons (ht.trans hk) hend due us)]
  exact h after us hafter hus

end ReadsText

/-- A mark that may stand in front, and does. -/
lemma readsText_accept {c : Char} {kind : TokenKind} (hc : c ∈ marks)
    (hk : punctuationKind c = kind) (follow : List Char → Prop) :
    ReadsText rules (accept kind) [c] true follow := by
  intro after ts hafter hts
  obtain ⟨t, us, rfl, ht, hus⟩ := exists_cons_of_mark hc hts
  exact ⟨us, result_accept_of_headIs (by simp [ht, hk]), hus⟩

/-- A mark that may stand in front where another one does. -/
lemma readsText_accept_not {kind : TokenKind} {ds : List Char}
    (h : ds.Forall fun c => c ∈ marks ∧ punctuationKind c ≠ kind) :
    ReadsText rules (accept kind) [] false (HeadIn ds) := by
  intro after ts hafter hts
  obtain ⟨c, hc, t, us, rfl, ht⟩ :=
    exists_cons_of_mark_head (h.imp fun _ hc => hc.1) hafter hts
  have hkind := (List.forall_iff_forall_mem.mp h c hc).2
  exact ⟨t :: us, result_accept_of_not_headIs (by simp [ht, hkind]),
    hts⟩

/-- A name that may come next, and does. -/
lemma readsText_identifierOrEmpty {name : String}
    (h : Readable rules (.identifier, name)) :
    ReadsText rules identifierOrEmpty name.toList name (EndsToken) := by
  intro after ts hafter hts
  obtain ⟨t, us, rfl, ht, hus⟩ := exists_cons_of_readable h hafter hts
  have hkind : t.kind = .identifier := congrArg Prod.fst ht
  refine ⟨us, ?_, hus⟩
  have hvalue : t.value = name := congrArg Prod.snd ht
  rw [identifierOrEmpty, result_bind_of_ok (result_identifier?_cons hkind us),
    result_pure, hvalue]
  rfl

/-- A production over and over, on texts one behind the other. -/
lemma readsText_repeated {γ : Type} {p : Production (Option α)}
    (hp : p.Moves) {print : γ → List Char} {value : γ → α} {xs : List γ}
    {follow follow' : List Char → Prop}
    (hstop : ReadsText rules p [] none follow)
    (hone : ∀ x ∈ xs, ReadsText rules p (print x) (some (value x)) follow')
    (hprint : ∀ x ∈ xs, ∀ after, follow' (print x ++ after))
    (hfollow : ∀ after, follow after → follow' after) :
    ReadsText rules (repeated p) (xs.flatMap print) (xs.map value)
      follow := by
  induction xs with
  | nil =>
      intro after ts hafter hts
      obtain ⟨rest, hrest, hrow⟩ := hstop after ts hafter hts
      exact ⟨rest, result_repeated_of_none hrest, hrow⟩
  | cons x xs ih =>
      obtain ⟨honex, honexs⟩ := List.forall_mem_cons.mp hone
      obtain ⟨-, hprintxs⟩ := List.forall_mem_cons.mp hprint
      intro after ts hafter hts
      rw [List.flatMap_cons, List.append_assoc] at hts
      have hbehind : follow' (xs.flatMap print ++ after) := by
        cases xs with
        | nil => exact hfollow after hafter
        | cons y ys =>
            rw [List.flatMap_cons, List.append_assoc]
            exact hprintxs y List.mem_cons_self _
      obtain ⟨mid, hmid, hrow⟩ := honex _ ts hbehind hts
      obtain ⟨rest, hrest, hlast⟩ := ih honexs hprintxs after mid hafter hrow
      refine ⟨rest, ?_, hlast⟩
      rw [hp.result_repeated hmid, hrest]
      rfl

/-- A production once and again after each comma. -/
lemma readsText_commaSeparated {γ : Type} {p : Production α} (hp : p.Onward)
    {print : γ → List Char} {value : γ → α} {x : γ} {xs : List γ}
    (h : ∀ y ∈ x :: xs,
      ReadsText rules p (print y) (value y) (HeadIn [',', ')'])) :
    ReadsText rules (commaSeparated p)
      (print x ++ xs.flatMap (',' :: ' ' :: print ·)) ((x :: xs).map value)
      (HeadIn [')']) := by
  obtain ⟨hx, hxs⟩ := List.forall_mem_cons.mp h
  have hcomma : ReadsText rules (accept .comma) [','] true fun _ => True :=
    readsText_accept (by decide) rfl _
  have hnocomma : ReadsText rules (accept .comma) [] false (HeadIn [')']) :=
    readsText_accept_not (by decide)
  have hothers := readsText_repeated
    (Onward.moves_behindMark (hp.bind fun a => onward_pure (some a)))
    (hnocomma.bind_nil (.elseBranch Bool.false_ne_true .pure))
    (fun y hy => hcomma.bind (.thenBranch rfl ((hxs y hy).blank.map some))
      fun _ _ => trivial)
    (fun _ _ _ => HeadIn.cons List.mem_cons_self _)
    fun _ h => h.imp (by decide)
  refine hx.bind (hothers.map (value x :: ·)) fun after hafter => ?_
  cases xs with
  | nil => exact hafter.imp (by decide)
  | cons y ys => exact HeadIn.cons List.mem_cons_self _

/-! ### Types -/

/-- A text is read as a type in parentheses, and taken as it stands. -/
def TypeReads (rules : MacroRules) (text : String) : Prop :=
  ReadsText rules (scan typeInParens) text.toList text (HeadIn [')'])

/-- The pieces of readable tokens are read again of their joined text. -/
lemma Takes.readsText {f : List Token → List String × List Token}
    {us : List Token} {pieces : List String} {next : List Token → Prop}
    {follow : List Char → Prop} (h : Takes f us pieces next)
    (hus : ∀ u ∈ us, Readable rules u.face)
    (hends : ∀ after, follow after → EndsToken after)
    (hnext : ∀ after rest, follow after →
      rest.map Token.face = rowOf rules after → next rest) :
    ReadsText rules (scan fun ts => (joinTypeText (f ts).1, (f ts).2))
      (joinTypeText pieces).toList (joinTypeText pieces) follow := by
  intro after ts hafter hts
  have hangles : AnglesSpelled us := fun u hu hk => by
    have hread : Readable rules (u.kind, u.value) := hus u hu
    exact (hk ▸ hread).eq_openAngle
  have htext : (joinTypeText pieces).toList
      = joinPiecesAfter none ((us.map Token.face).map (·.2.toList)) := by
    rw [joinTypeText, String.toList_ofList, (h.alike hangles).eq,
      List.map_map]
    rfl
  rw [rowOf, htext, facesOf_joinPiecesAfter (List.forall_mem_map.mpr hus)
    (hends after hafter), List.append_assoc] at hts
  obtain ⟨vs, rest, rfl, hvs, hrest⟩ := List.map_eq_append_iff.mp hts
  refine ⟨rest, ?_, hrest⟩
  rw [result_scan, h.again vs rest hvs (hnext _ rest hafter hrest)]

/-- A type that was read of readable tokens in parentheses is read
again. -/
lemma typeReads_of_typeInParens {ts us rest : List Token}
    (h : (typeInParens ts).2 = rest)
    (hclose : headIs .closeParen rest = true) (hts : ts = us ++ rest)
    (hus : ∀ u ∈ us, Readable rules u.face) :
    TypeReads rules (typeInParens ts).1 := by
  have hrest : (piecesInParens 0 ts).2 = rest := h
  obtain ⟨vs, hvs, htakes⟩ :=
    exists_takes_piecesInParens (hrest ▸ hclose)
  rw [hrest] at hvs
  obtain rfl := List.append_cancel_right (hts.symm.trans hvs)
  refine htakes.readsText hus
    (fun after h => h.endsToken (by decide)) fun after row h hrow => ?_
  obtain ⟨c, hc, t, us, rfl, ht⟩ :=
    exists_cons_of_mark_head (by decide) h hrow
  rw [List.mem_singleton.mp hc] at ht
  simp [ht, punctuationKind]

/-- A type that was read of readable tokens in front of a name is read
again in front of the name. -/
lemma readsText_typeText {ts us rest : List Token} {name : Token}
    (h : (typeText ts).2 = name :: rest) (hname : name.kind = .identifier)
    (hts : ts = us ++ name :: rest) (hus : ∀ u ∈ us, Readable rules u.face)
    (hread : Readable rules name.face) :
    ReadsText rules (scan typeText) (typeText ts).1.toList (typeText ts).1
      fun after => ∃ ds, after = ' ' :: (name.value.toList ++ ';' :: ds) := by
  obtain ⟨vs, hvs, htakes⟩ := exists_takes_typePieces h hname
  obtain rfl := List.append_cancel_right (hts.symm.trans hvs)
  refine htakes.readsText hus ?_ ?_
  · rintro _ ⟨ds, rfl⟩
    exact endsToken_cons (by decide) _
  · rintro _ row ⟨ds, rfl⟩ hrow
    rw [rowOf_blank (by decide)] at hrow
    obtain ⟨t, row, rfl, ht, hrow⟩ :=
      exists_cons_of_readable hread (endsToken_cons (by decide) ds) hrow
    obtain ⟨s, row, rfl, hs, -⟩ := exists_cons_of_mark (by decide) hrow
    exact ⟨t, s, row, rfl, ht, hs⟩

end HeaderBinding
