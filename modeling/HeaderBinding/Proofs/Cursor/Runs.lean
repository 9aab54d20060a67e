/-
The runs of tokens from which the items of a container are read.

* `upTo`: the tokens of a row before a later row;
* `runsOf`: the runs of all items; `flatten_runsOf`: together they are the
  row up to the place where reading stops;
* `switched`, `lastOf`: a state that two marks turn on and off; it is on
  exactly if the last of the marks turned it on (`foldl_switched_iff`);
* `leads`: the kinds of the tokens that runs begin with;
* `Along`: what was found in runs, in their order, each found in one run;
  `along_readAll`: if the values of each item are found in its runs, then
  so are the values of all.
-/
import Mathlib.Data.List.Induction
import HeaderBinding.Proofs.Cursor.Orderly

namespace HeaderBinding

open Production

/-! ### The tokens before a later row -/

/-- The tokens of a row before a later one. -/
def upTo (ts rest : List Token) : List Token :=
  ts.take (ts.length - rest.length)

lemma upTo_append_right (us rest : List Token) :
    upTo (us ++ rest) rest = us := by
  rw [upTo, List.length_append, Nat.add_sub_cancel]
  exact List.take_left

lemma upTo_append {ts rest : List Token} (h : Reaches ts rest) :
    upTo ts rest ++ rest = ts := by
  obtain ⟨us, rfl⟩ := h.suffix
  rw [upTo_append_right]

/-- A row that is left behind its first token begins with that token. -/
lemma exists_upTo_cons (t : Token) {ts rest : List Token}
    (h : Reaches ts rest) :
    ∃ us, upTo (t :: ts) rest = t :: us ∧ us ++ rest = ts := by
  obtain ⟨us, rfl⟩ := h.suffix
  exact ⟨us, upTo_append_right (t :: us) rest, rfl⟩

section Items

variable {σ α : Type} {remark? : α → Option Diagnostic}

/-- The place of the next item lies behind the first token of this one. -/
lemma Reading.Orderly.reaches_next_tail {r : Reading σ α} {t : Token}
    {ts : List Token} (h : r.Orderly remark? (t :: ts))
    (hk : t.kind ≠ .endOfInput) : Reaches ts (r.next (t :: ts)) := by
  have hreach : Reaches (t :: ts) (r.next (t :: ts)) :=
    h.reaches.trans (h.reaches_next (atEnd_cons_eq_false.mpr hk))
  have hlt := Reading.length_next_lt r (List.cons_ne_nil t ts)
  generalize r.next (t :: ts) = rest at hreach hlt
  cases hreach with
  | refl => exact absurd hlt (Nat.lt_irrefl _)
  | pass _ hreach => exact hreach

/-- The next item is read behind one that does not fail. -/
lemma next_of_length_lt {items : List α} {s : σ} {ts rest : List Token}
    (h : rest.length < ts.length) :
    (⟨items, s, rest, none⟩ : Reading σ α).next ts = rest := by
  simp [Reading.next, h]

/-- The tokens that one item is read from, those skipped behind it if it
fails included. -/
def ownRun (one : σ → List Token → Reading σ α) (s : σ)
    (ts : List Token) : List Token :=
  upTo ts ((one s ts).next ts)

/-- The runs from which the items of a container are read, where `runsAt`
gives those of one item. -/
def runsOf (stops : List TokenKind) (one : σ → List Token → Reading σ α)
    (runsAt : σ → List Token → List (List Token)) (s : σ)
    (ts : List Token) : List (List Token) :=
  (places stops one s ts).flatMap fun p => runsAt p.1 p.2

variable {stops : List TokenKind} {one : σ → List Token → Reading σ α}
  {runsAt : σ → List Token → List (List Token)} {report : Failure → α}

/-- The run of an item begins with the token that the item begins with. -/
lemma AllOrderly.exists_ownRun (h : AllOrderly stops one remark?) (s : σ)
    {t : Token} {ts : List Token} (hk : t.kind ≠ .endOfInput)
    (hnot : headIn stops (t :: ts) = false) :
    ∃ us, ownRun one s (t :: ts) = t :: us := by
  have ho := h s _ (atEnd_cons_eq_false.mpr hk) hnot
  obtain ⟨us, hus, -⟩ := exists_upTo_cons t (ho.reaches_next_tail hk)
  exact ⟨us, hus⟩

lemma runsOf_of_stop {s : σ} {ts : List Token}
    (h : atEnd ts ∨ headIn stops ts) : runsOf stops one runsAt s ts = [] := by
  rw [runsOf, places, dif_pos h, List.flatMap_nil]

lemma runsOf_of_not_stop {s : σ} {ts : List Token}
    (h : ¬(atEnd ts ∨ headIn stops ts)) :
    runsOf stops one runsAt s ts = runsAt s ts
      ++ runsOf stops one runsAt (one s ts).state ((one s ts).next ts) := by
  rw [runsOf, places, dif_neg h, List.flatMap_cons]
  rfl

lemma go_of_not_stop {ts : List Token}
    (h : ¬(atEnd ts ∨ headIn stops ts)) :
    ∃ t rest, ts = t :: rest ∧ t.kind ≠ .endOfInput
      ∧ headIn stops (t :: rest) = false := by
  rw [not_or, Bool.not_eq_true, Bool.not_eq_true] at h
  obtain ⟨t, rest, rfl, hk⟩ := exists_cons_of_atEnd_eq_false h.1
  exact ⟨t, rest, rfl, hk, h.2⟩

/-- The runs of all items are the row up to where reading stops. -/
lemma flatten_runsOf
    (h : ∀ s t ts, t.kind ≠ .endOfInput → headIn stops (t :: ts) = false →
      (runsAt s (t :: ts)).flatten ++ (one s (t :: ts)).next (t :: ts)
        = t :: ts) (s : σ) (ts : List Token) :
    (runsOf stops one runsAt s ts).flatten
      ++ (readAll stops one report s ts).2.2 = ts := by
  fun_induction readAll stops one report s ts with
  | case1 s ts hstop =>
      rw [runsOf_of_stop hstop]
      rfl
  | case2 s ts hgo r q ih =>
      obtain ⟨t, rest, rfl, hk, hnot⟩ := go_of_not_stop hgo
      rw [runsOf_of_not_stop hgo, List.flatten_append, List.append_assoc,
        ih]
      exact h s t rest hk hnot

end Items

/-! ### A state that marks turn on and off -/

/-- The state behind a token: one kind turns it on, another turns it
off. -/
def switched (on off : TokenKind) (state : Bool) (kind : TokenKind) : Bool :=
  if kind = on then true else if kind = off then false else state

/-- The last kind of a row that is one of the marks. -/
def lastOf (marks kinds : List TokenKind) : Option TokenKind :=
  (kinds.filter marks.contains).getLast?

lemma lastOf_append_singleton (marks kinds : List TokenKind)
    (kind : TokenKind) :
    lastOf marks (kinds ++ [kind])
      = if kind ∈ marks then some kind else lastOf marks kinds := by
  rw [lastOf, lastOf, List.filter_append]
  by_cases h : kind ∈ marks <;> simp [h]

/-- The state is on exactly if the last of its two marks turned it on. -/
lemma foldl_switched_iff {on off : TokenKind} (hne : on ≠ off)
    (kinds : List TokenKind) :
    kinds.foldl (switched on off) false = true
      ↔ lastOf [on, off] kinds = some on := by
  -- from the end, as the last mark decides
  induction kinds using List.reverseRecOn with
  | nil => simp [lastOf]
  | append_singleton kinds kind ih =>
      rw [List.foldl_append, List.foldl_cons, List.foldl_nil,
        lastOf_append_singleton, switched]
      by_cases hon : kind = on
      · simp [hon]
      by_cases hoff : kind = off
      · simp [hoff, hne.symm]
      · simpa [hon, hoff] using ih

/-! ### The first tokens of runs -/

/-- The kinds of the tokens that the runs begin with. -/
def leads (runs : List (List Token)) : List TokenKind :=
  runs.filterMap fun run => run.head?.map (·.kind)

@[simp] lemma leads_append (runs more : List (List Token)) :
    leads (runs ++ more) = leads runs ++ leads more :=
  List.filterMap_append

@[simp] lemma leads_cons_cons (t : Token) (us : List Token)
    (runs : List (List Token)) :
    leads ((t :: us) :: runs) = t.kind :: leads runs :=
  rfl

@[simp] lemma leads_nil : leads [] = [] :=
  rfl

/-- No mark stands in a run behind its first token. -/
def OnlyLead (marks : List TokenKind) (runs : List (List Token)) : Prop :=
  ∀ run ∈ runs, ∀ t ∈ run.tail, t.kind ∉ marks

instance (marks : List TokenKind) (runs : List (List Token)) :
    Decidable (OnlyLead marks runs) :=
  inferInstanceAs (Decidable (∀ run ∈ runs, ∀ t ∈ run.tail, t.kind ∉ marks))

/-- Where marks only begin runs, the marks among all tokens are those among
the first tokens of the runs. -/
lemma OnlyLead.filter_leads {marks : List TokenKind}
    {runs : List (List Token)} (h : OnlyLead marks runs) :
    (leads runs).filter marks.contains
      = (runs.flatten.map (·.kind)).filter marks.contains := by
  induction runs with
  | nil => rfl
  | cons run runs ih =>
      rw [OnlyLead, List.forall_mem_cons] at h
      cases run with
      | nil => exact ih h.2
      | cons t us =>
          have hus : (us.map (·.kind)).filter marks.contains = [] := by
            simpa [List.filter_eq_nil_iff] using h.1
          rw [leads_cons_cons, List.flatten_cons, List.cons_append,
            List.map_cons, List.map_append, List.filter_cons,
            List.filter_cons, List.filter_append, hus, List.nil_append,
            ih h.2]

/-- So the last of them begins a run, also behind tokens without a mark. -/
lemma OnlyLead.lastOf_flatten {marks : List TokenKind}
    {runs : List (List Token)} (h : OnlyLead marks runs) {us : List Token}
    (hus : ∀ t ∈ us, t.kind ∉ marks) :
    lastOf marks ((us ++ runs.flatten).map (·.kind))
      = lastOf marks (leads runs) := by
  have hnone : (us.map (·.kind)).filter marks.contains = [] := by
    simpa [List.filter_eq_nil_iff] using hus
  rw [lastOf, lastOf, List.map_append, List.filter_append, hnone,
    List.nil_append, h.filter_leads]

lemma OnlyLead.append_left {marks : List TokenKind}
    {runs more : List (List Token)} (h : OnlyLead marks (runs ++ more)) :
    OnlyLead marks runs :=
  fun run hrun => h run (List.mem_append_left more hrun)

lemma OnlyLead.append_right {marks : List TokenKind}
    {runs more : List (List Token)} (h : OnlyLead marks (runs ++ more)) :
    OnlyLead marks more :=
  fun run hrun => h run (List.mem_append_right runs hrun)

/-! ### What is found in runs -/

/-- The values, in order, are found in runs of a row, in order, each in one
run.  The relation says of a value that it is found in a run behind the
runs before it. -/
inductive Along {β : Type}
    (R : List (List Token) → List Token → β → Prop) :
    List (List Token) → List (List Token) → List β → Prop
  | nil {before : List (List Token)} : Along R before [] []
  | pass {before runs : List (List Token)} {run : List Token} {bs : List β}
      (h : Along R (before ++ [run]) runs bs) :
      Along R before (run :: runs) bs
  | take {before runs : List (List Token)} {run : List Token} {b : β}
      {bs : List β} (hb : R before run b)
      (h : Along R (before ++ [run]) runs bs) :
      Along R before (run :: runs) (b :: bs)

namespace Along

variable {β : Type} {R : List (List Token) → List Token → β → Prop}
  {before runs more : List (List Token)} {bs cs : List β}

/-- Runs in which nothing is found. -/
lemma passAll (before runs : List (List Token)) : Along R before runs [] := by
  induction runs generalizing before with
  | nil => exact .nil
  | cons run runs ih => exact .pass (ih _)

/-- What is found in one row of runs and then in the next. -/
lemma append (h : Along R before runs bs)
    (h' : Along R (before ++ runs) more cs) :
    Along R before (runs ++ more) (bs ++ cs) := by
  induction h with
  | nil => simpa using h'
  | pass _ ih => exact .pass (ih (by simpa using h'))
  | take hb _ ih => exact .take hb (ih (by simpa using h'))

/-- What is found can be told of in another way. -/
lemma map {γ : Type} {R' : List (List Token) → List Token → γ → Prop}
    {f : β → γ} (hR : ∀ before run b, R before run b → R' before run (f b))
    (h : Along R before runs bs) : Along R' before runs (bs.map f) := by
  induction h with
  | nil => exact .nil
  | pass _ ih => exact .pass ih
  | take hb _ ih => exact .take (hR _ _ _ hb) ih

/-- Each value is found in some run. -/
lemma exists_of_mem (h : Along R before runs bs) {b : β} (hb : b ∈ bs) :
    ∃ as run cs, runs = as ++ run :: cs ∧ R (before ++ as) run b := by
  induction h with
  | nil => exact absurd hb List.not_mem_nil
  | @pass before runs run bs _ ih =>
      obtain ⟨as, found, cs, rfl, hR⟩ := ih hb
      exact ⟨run :: as, found, cs, rfl, by simpa using hR⟩
  | @take before runs run b' bs hb' _ ih =>
      rcases List.mem_cons.mp hb with rfl | hb
      · exact ⟨[], run, runs, rfl, by simpa using hb'⟩
      · obtain ⟨as, found, cs, rfl, hR⟩ := ih hb
        exact ⟨run :: as, found, cs, rfl, by simpa using hR⟩

end Along

section ReadAll

variable {σ α β : Type} {stops : List TokenKind}
  {one : σ → List Token → Reading σ α} {report : Failure → α}
  {runsAt : σ → List Token → List (List Token)} {g : α → List β}
  {R : List (List Token) → List Token → β → Prop}

/-- What holds of the runs up to an item and the state before it, and so
also behind the item, holds behind all items. -/
lemma holds_readAll {P : List (List Token) → σ → Prop}
    (hstep : ∀ before s t ts, t.kind ≠ .endOfInput →
      headIn stops (t :: ts) = false → P before s →
      P (before ++ runsAt s (t :: ts)) (one s (t :: ts)).state)
    (s : σ) (ts : List Token) : ∀ before, P before s →
      P (before ++ runsOf stops one runsAt s ts)
        (readAll stops one report s ts).2.1 := by
  fun_induction readAll stops one report s ts with
  | case1 s ts hstop =>
      intro before hs
      rwa [runsOf_of_stop hstop, List.append_nil]
  | case2 s ts hgo r q ih =>
      intro before hs
      obtain ⟨t, rest, rfl, hk, hnot⟩ := go_of_not_stop hgo
      rw [runsOf_of_not_stop hgo, ← List.append_assoc]
      exact ih _ (hstep before s t rest hk hnot hs)

/-- If then the values of each item are found in its runs, so are the
values of all items. -/
lemma along_readAll {P : List (List Token) → σ → Prop}
    (hstep : ∀ before s t ts, t.kind ≠ .endOfInput →
      headIn stops (t :: ts) = false → P before s →
      P (before ++ runsAt s (t :: ts)) (one s (t :: ts)).state)
    (hone : ∀ before s t ts, t.kind ≠ .endOfInput →
      headIn stops (t :: ts) = false → P before s →
      Along R before (runsAt s (t :: ts))
        (((one s (t :: ts)).found report).flatMap g))
    (s : σ) (ts : List Token) : ∀ before, P before s →
      Along R before (runsOf stops one runsAt s ts)
        ((readAll stops one report s ts).1.flatMap g) := by
  fun_induction readAll stops one report s ts with
  | case1 s ts hstop =>
      intro before hs
      rw [runsOf_of_stop hstop]
      exact .nil
  | case2 s ts hgo r q ih =>
      intro before hs
      obtain ⟨t, rest, rfl, hk, hnot⟩ := go_of_not_stop hgo
      have hrest := ih _ (hstep before s t rest hk hnot hs)
      rw [runsOf_of_not_stop hgo, List.flatMap_append]
      exact (hone before s t rest hk hnot hs).append hrest

/-- Where the reports of failures hold nothing, the items hold all. -/
lemma flatMap_found {r : Reading σ α} (hreport : ∀ e, g (report e) = []) :
    (r.found report).flatMap g = r.items.flatMap g := by
  cases hf : r.failure? <;> simp [Reading.found, hf, hreport]

/-- An item that a production reads behind a first token: what it yields
is found in the run, or nothing is. -/
lemma along_reading {γ : Type} {p : Production γ} {f : γ → α}
    (hp : p.Onward) (hreport : ∀ e, g (report e) = [])
    {before : List (List Token)} {t : Token} {ts : List Token}
    (hok : ∀ c span rest, span ++ rest = ts →
      p.result (span ++ rest) = (.ok c, rest) →
      g (f c) = [] ∨ ∃ b, g (f c) = [b] ∧ R before (t :: span) b) (s : σ) :
    Along R before
      [upTo (t :: ts) ((Production.reading (do return [f (← p)]) s ts).next
        (t :: ts))]
      (((Production.reading (do return [f (← p)]) s ts).found
        report).flatMap g) := by
  rcases hres : p.result ts with ⟨e | c, rest⟩
  · have hfail : (do return [f (← p)] : Production (List α)).result ts
        = (.error e, rest) := by
      rw [result_bind, hres]
    rw [reading_of_error s hfail]
    simpa [Reading.found, hreport] using .passAll before _
  · have hreach := hp.reaches hres
    obtain ⟨span, rfl⟩ := hreach.suffix
    have hlt : rest.length < (t :: (span ++ rest)).length :=
      hreach.length_lt_cons
    rw [reading_of_ok s (by rw [result_bind_of_ok hres, result_pure])]
    rw [next_of_length_lt hlt, ← List.cons_append, upTo_append_right]
    rcases hok c span rest rfl hres with hnone | ⟨b, hb, hR⟩
    · simpa [Reading.found, hnone] using .passAll before _
    · simpa [Reading.found, hb] using .take hR .nil

end ReadAll

end HeaderBinding
