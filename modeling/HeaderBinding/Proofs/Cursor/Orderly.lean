/-
Reading the items of a container in order.

* `Remarked`: the remarks made between two rows, each at the place of a
  token, one behind the other;
* `Orderly`: an item is read onward, moves unless it fails, remarks in
  order, and fails at the token where it stopped;
* `places`: the rows at which items are read, one for each item;
  `readAll_fst` takes what is read apart into what is read at each of them;
* `AllOrderly.remarked`: if every item is orderly, then so is the reading of
  all: places only move on, and remarks come in the order of the text.
-/
import Mathlib.Data.List.Pairwise
import Mathlib.Data.List.Forall2
import HeaderBinding.Proofs.Cursor.Grammar

namespace HeaderBinding

/-! ### Remarks in the order of the text -/

/-- A remark stands at the next token of a row. -/
def Diagnostic.At (d : Diagnostic) (ts : List Token) : Prop :=
  d.line = (nextToken ts).line ∧ d.column = (nextToken ts).column

/-- Remarks made while one row was read up to another: each stands at a
place that is reached from the place of the remark before it. -/
inductive Remarked : List Token → List Token → List Diagnostic → Prop
  | nil {ts rest : List Token} (h : Reaches ts rest) : Remarked ts rest []
  | cons {ts place rest : List Token} {d : Diagnostic}
      {ds : List Diagnostic} (h : Reaches ts place) (hd : d.At place)
      (hr : Remarked place rest ds) : Remarked ts rest (d :: ds)

namespace Remarked

variable {as bs cs : List Token} {ds es : List Diagnostic}

lemma reaches (h : Remarked as bs ds) : Reaches as bs := by
  induction h with
  | nil h => exact h
  | cons h _ _ ih => exact h.trans ih

/-- Passing over tokens before the remarks. -/
lemma of_reaches (h : Reaches as bs) (hr : Remarked bs cs ds) :
    Remarked as cs ds := by
  cases hr with
  | nil h' => exact .nil (h.trans h')
  | cons h' hd hr => exact .cons (h.trans h') hd hr

/-- Remarks on one stretch and then on the next. -/
lemma append (h : Remarked as bs ds) (h' : Remarked bs cs es) :
    Remarked as cs (ds ++ es) := by
  induction h with
  | nil h => exact h'.of_reaches h
  | cons h hd _ ih => exact .cons h hd (ih h')

/-- Passing over tokens behind the remarks. -/
lemma then_reaches (h : Remarked as bs ds) (hr : Reaches bs cs) :
    Remarked as cs ds := by
  have := h.append (.nil hr)
  rwa [List.append_nil] at this

end Remarked

lemma Failure.diagnostic_at {f : Failure} {ts : List Token}
    (h : f.found = nextToken ts) : f.diagnostic.At ts :=
  ⟨congrArg Token.line h, congrArg Token.column h⟩

/-! ### One item -/

namespace Production

variable {σ α : Type} {p : Production (List α)} {ts rest : List Token}

lemma reading_of_ok (s : σ) {items : List α}
    (h : p.result ts = (.ok items, rest)) :
    p.reading s ts = ⟨items, s, rest, none⟩ := by
  have hrun : p.run ts = (.ok items, rest) := h
  rw [Production.reading, hrun]

lemma reading_of_error (s : σ) {f : Failure}
    (h : p.result ts = (.error f, rest)) :
    p.reading s ts = ⟨[], s, rest, some f⟩ := by
  have hrun : p.run ts = (.error f, rest) := h
  rw [Production.reading, hrun]

end Production

/-- Reading from a row keeps order: its remarks come in the order of the
text, and its failure names the token where it stopped. -/
structure Reading.InOrder {σ α : Type} (remark? : α → Option Diagnostic)
    (r : Reading σ α) (ts : List Token) : Prop where
  remarked : Remarked ts r.rest (r.items.filterMap remark?)
  found_eq : ∀ f, r.failure? = some f → f.found = nextToken r.rest

/-- An item that is read in order, and that moves unless it fails. -/
structure Reading.Orderly {σ α : Type} (remark? : α → Option Diagnostic)
    (r : Reading σ α) (ts : List Token) : Prop
    extends r.InOrder remark? ts where
  moves : r.failure? = none → r.rest.length < ts.length

section OneItem

variable {σ α : Type} {remark? : α → Option Diagnostic}
  {r : Reading σ α} {ts : List Token}

lemma Reading.InOrder.reaches (h : r.InOrder remark? ts) :
    Reaches ts r.rest :=
  h.remarked.reaches

/-- Passing over tokens before the reading. -/
lemma Reading.InOrder.of_reaches {us : List Token} (hr : Reaches us ts)
    (h : r.InOrder remark? ts) : r.InOrder remark? us :=
  ⟨h.remarked.of_reaches hr, h.found_eq⟩

/-- What is read in order behind a first token is orderly from that token
on. -/
lemma Reading.InOrder.orderly_cons (h : r.InOrder remark? ts) {t : Token}
    (hk : t.kind ≠ .endOfInput) : r.Orderly remark? (t :: ts) where
  toInOrder := h.of_reaches (.pass hk (.refl ts))
  moves := fun _ => h.reaches.length_lt_cons

/-- Items that hold no remark and that a production keeps to. -/
lemma Production.Onward.inOrder {p : Production (List α)} (hp : p.Onward)
    (s : σ) (ts : List Token)
    (hr : ∀ items rest, p.result ts = (.ok items, rest) →
      items.filterMap remark? = []) :
    (p.reading s ts).InOrder remark? ts := by
  rcases hres : p.result ts with ⟨f | items, rest⟩
  · rw [reading_of_error s hres]
    refine ⟨.nil (hp.reaches hres), fun g hg => ?_⟩
    rw [← Option.some.inj hg]
    exact hp.found_eq hres
  · rw [reading_of_ok s hres]
    refine ⟨?_, fun f hf => nomatch hf⟩
    rw [hr items rest hres]
    exact .nil (hp.reaches hres)

/-- The same, where the production also reads something. -/
lemma Production.Onward.orderly {p : Production (List α)} (hp : p.Onward)
    (s : σ) (ts : List Token)
    (hr : ∀ items rest, p.result ts = (.ok items, rest) →
      items.filterMap remark? = [])
    (hm : ∀ items rest, p.result ts = (.ok items, rest) →
      rest.length < ts.length) :
    (p.reading s ts).Orderly remark? ts := by
  refine ⟨hp.inOrder s ts hr, ?_⟩
  rcases hres : p.result ts with ⟨f | items, rest⟩
  · rw [reading_of_error s hres]
    exact fun hf => nomatch hf
  · rw [reading_of_ok s hres]
    exact fun _ => hm items rest hres

end OneItem

namespace Reading.Orderly

variable {σ α : Type} {remark? : α → Option Diagnostic}
  {r : Reading σ α} {ts : List Token}

/-- The next item is read from a place behind this one. -/
lemma reaches_next (h : r.Orderly remark? ts) (hend : atEnd ts = false) :
    Reaches r.rest (r.next ts) := by
  obtain ⟨t, rest, rfl, hk⟩ := exists_cons_of_atEnd_eq_false hend
  have hleft : Reaches r.rest
      (if r.rest.length < (t :: rest).length then r.rest
        else (t :: rest).tail) := by
    split
    · exact .refl _
    · rename_i hlt
      have hle := h.reaches.length_le
      have hsame : r.rest = t :: rest :=
        h.reaches.suffix.eq_of_length (Nat.le_antisymm hle (by omega))
      rw [hsame]
      exact .pass hk (.refl _)
  unfold Reading.next
  simp only
  split
  · exact hleft.trans (reaches_recover _)
  · exact hleft

/-- What an item leaves behind, its failure included, is remarked in
order up to the place of the next item. -/
lemma remarked_next (h : r.Orderly remark? ts) (hend : atEnd ts = false)
    {report : Failure → α}
    (hrep : ∀ f, remark? (report f) = some f.diagnostic) :
    Remarked ts (r.next ts)
      ((r.items ++ (r.failure?.map report).toList).filterMap remark?) := by
  rw [List.filterMap_append]
  refine h.remarked.append ?_
  cases hf : r.failure? with
  | none => exact .nil (h.reaches_next hend)
  | some f =>
      have hfound := Failure.diagnostic_at (h.found_eq f hf)
      simp only [Option.map_some, Option.toList_some, List.filterMap_cons,
        hrep, List.filterMap_nil]
      exact .cons (.refl _) hfound (.nil (h.reaches_next hend))

end Reading.Orderly

/-! ### All items -/

section ReadAll

variable {σ α : Type} {stops : List TokenKind}
  {one : σ → List Token → Reading σ α} {report : Failure → α}

/-- The states and rows from which an item is read. -/
def places (stops : List TokenKind) (one : σ → List Token → Reading σ α)
    (s : σ) (ts : List Token) : List (σ × List Token) :=
  if _h : atEnd ts ∨ headIn stops ts then []
  else (s, ts) :: places stops one (one s ts).state ((one s ts).next ts)
termination_by ts.length
decreasing_by
  apply Reading.length_next_lt
  rintro rfl
  simp at _h

/-- What an item leaves: what it holds, and the report of its failure. -/
def Reading.found (report : Failure → α) (r : Reading σ α) : List α :=
  r.items ++ (r.failure?.map report).toList

/-- What is read of a container is what is read at each place. -/
lemma readAll_fst (s : σ) (ts : List Token) :
    (readAll stops one report s ts).1
      = (places stops one s ts).flatMap
          fun p => (one p.1 p.2).found report := by
  fun_induction places stops one s ts with
  | case1 s ts h =>
      rw [readAll, dif_pos h]
      rfl
  | case2 s ts h ih =>
      rw [readAll, dif_neg h, List.flatMap_cons, ← ih]
      rfl

/-- One item is read, and reading stops behind it. -/
lemma readAll_one {s s' : σ} {ts rest : List Token} {items : List α}
    (hend : atEnd ts = false) (hstop : headIn stops ts = false)
    (h : one s ts = ⟨items, s', rest, none⟩)
    (hlt : rest.length < ts.length)
    (hrest : atEnd rest = true ∨ headIn stops rest = true) :
    readAll stops one report s ts = (items, s', rest) := by
  have hnext : (⟨items, s', rest, none⟩ : Reading σ α).next ts = rest := by
    simp [Reading.next, hlt]
  rw [readAll, dif_neg (by simp [hend, hstop])]
  simp only [h, hnext]
  rw [readAll, dif_pos hrest]
  simp

/-- Every item that is read at a place where the row goes on is
orderly. -/
def AllOrderly (stops : List TokenKind)
    (one : σ → List Token → Reading σ α)
    (remark? : α → Option Diagnostic) : Prop :=
  ∀ s ts, atEnd ts = false → headIn stops ts = false →
    (one s ts).Orderly remark? ts

variable {remark? : α → Option Diagnostic}

/-- All items are remarked on in the order of the text. -/
lemma AllOrderly.remarked (h : AllOrderly stops one remark?)
    (hrep : ∀ f, remark? (report f) = some f.diagnostic) (s : σ)
    (ts : List Token) :
    Remarked ts (readAll stops one report s ts).2.2
      ((readAll stops one report s ts).1.filterMap remark?) := by
  fun_induction readAll stops one report s ts with
  | case1 s ts hstop => exact .nil (.refl ts)
  | case2 s ts hgo r q ih =>
      rw [not_or, Bool.not_eq_true, Bool.not_eq_true] at hgo
      rw [List.filterMap_append]
      exact ((h s ts hgo.1 hgo.2).remarked_next hgo.1 hrep).append ih

/-- Reading stops at the end or at a token of the kinds. -/
lemma readAll_stops (s : σ) (ts : List Token) :
    atEnd (readAll stops one report s ts).2.2 = true
      ∨ headIn stops (readAll stops one report s ts).2.2 = true := by
  fun_induction readAll stops one report s ts with
  | case1 s ts hstop => exact hstop
  | case2 s ts hgo r q ih => exact ih

/-- The rows at the places, and the row that is left behind them. -/
def rowsRead (stops : List TokenKind) (one : σ → List Token → Reading σ α)
    (report : Failure → α) (s : σ) (ts : List Token) : List (List Token) :=
  (places stops one s ts).map (·.2)
    ++ [(readAll stops one report s ts).2.2]

lemma rowsRead_of_stop {s : σ} {ts : List Token}
    (h : atEnd ts ∨ headIn stops ts) :
    rowsRead stops one report s ts = [ts] := by
  rw [rowsRead, places, readAll, dif_pos h, dif_pos h]
  rfl

lemma rowsRead_of_not_stop {s : σ} {ts : List Token}
    (h : ¬(atEnd ts ∨ headIn stops ts)) :
    rowsRead stops one report s ts
      = ts :: rowsRead stops one report (one s ts).state
          ((one s ts).next ts) := by
  rw [rowsRead, places, readAll, dif_neg h, dif_neg h]
  rfl

/-- The first of the rows is the whole. -/
lemma exists_rowsRead_eq_cons (stops : List TokenKind)
    (one : σ → List Token → Reading σ α) (report : Failure → α) (s : σ)
    (ts : List Token) :
    ∃ rows, rowsRead stops one report s ts = ts :: rows := by
  by_cases h : atEnd ts ∨ headIn stops ts
  · exact ⟨[], rowsRead_of_stop h⟩
  · exact ⟨_, rowsRead_of_not_stop h⟩

/-- Each row is reached from the row before, and fewer tokens are left
there. -/
lemma AllOrderly.isChain_rowsRead (h : AllOrderly stops one remark?) (s : σ)
    (ts : List Token) :
    (rowsRead stops one report s ts).IsChain
      fun a b => Reaches a b ∧ b.length < a.length := by
  fun_induction places stops one s ts with
  | case1 s ts hstop =>
      rw [rowsRead_of_stop hstop]
      exact .singleton ts
  | case2 s ts hgo ih =>
      have hgo' := hgo
      rw [not_or, Bool.not_eq_true, Bool.not_eq_true] at hgo'
      have hne : ts ≠ [] := by
        rintro rfl
        simp at hgo'
      have ho := h s ts hgo'.1 hgo'.2
      rw [rowsRead_of_not_stop hgo]
      obtain ⟨rows, hrows⟩ := exists_rowsRead_eq_cons stops one report
        (one s ts).state ((one s ts).next ts)
      rw [hrows] at ih ⊢
      exact .cons_cons ⟨ho.reaches.trans (ho.reaches_next hgo'.1),
        Reading.length_next_lt _ hne⟩ ih

/-- Each place is reached from the start. -/
lemma AllOrderly.reaches_place (h : AllOrderly stops one remark?) (s : σ)
    (ts : List Token) {p : σ × List Token}
    (hp : p ∈ places stops one s ts) :
    Reaches ts p.2 ∧ atEnd p.2 = false ∧ headIn stops p.2 = false := by
  fun_induction places stops one s ts with
  | case1 s ts hstop => simp at hp
  | case2 s ts hgo ih =>
      rw [not_or, Bool.not_eq_true, Bool.not_eq_true] at hgo
      rcases List.mem_cons.mp hp with rfl | hp
      · exact ⟨.refl ts, hgo⟩
      · have ho := h s ts hgo.1 hgo.2
        have hn := ho.reaches.trans (ho.reaches_next hgo.1)
        exact ⟨hn.trans (ih hp).1, (ih hp).2⟩

end ReadAll

end HeaderBinding
