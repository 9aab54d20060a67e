/-
What a command reads from files that have not changed.

* `Action.Steady`: what a step gives from one tree it gives from another,
  and it changes neither;
* `steady_readSettings`, `steady_headerPlaces`, `steady_readHeaderFile`:
  the steps that read the input of a command;
* `InputKept`, `steady_readInput`: the parts of a tree that the input
  depends on, and that it depends on nothing else.
-/
import Mathlib.Data.List.Forall2
import HeaderBinding.Proofs.Command.Action

namespace HeaderBinding

open FileTree

namespace Action

variable {α β : Type} {t t' : FileTree}

/-! ### Steady steps -/

/-- If the step gives the value from one tree, it gives it from the other
as well, and it changes neither. -/
def Steady (t t' : FileTree) (act : Action α) (v : α) : Prop :=
  ∀ c, act.result { tree := t } = (.ok v, c) →
    c = { tree := t }
      ∧ act.result { tree := t' } = (.ok v, { tree := t' })

lemma steady_pure (v w : α) : Steady t t' (pure v : Action α) w := by
  intro c h
  obtain ⟨hvalue, rfl⟩ := Prod.mk.inj h
  rw [result_pure, hvalue]
  exact ⟨rfl, rfl⟩

lemma steady_throw (f : CommandFault) (v : α) :
    Steady t t' (throw f : Action α) v :=
  fun _ h => by cases h

/-- A step that succeeds where something holds of the tree, and changes
nothing. -/
lemma steady_of_iff {act : Action α} {v : α} {P : FileTree → Prop}
    (h : ∀ c c', act.result c = (.ok v, c') ↔ P c.tree ∧ c' = c)
    (hkept : P t → P t') : Steady t t' act v := by
  intro c hc
  obtain ⟨hold, rfl⟩ := (h _ _).mp hc
  exact ⟨rfl, (h _ _).mpr ⟨hkept hold, rfl⟩⟩

/-- One step behind another. -/
lemma steady_bind {act : Action α} {k : α → Action β} {w : β}
    (hact : ∀ v, Steady t t' act v)
    (hk : ∀ v, act.result { tree := t } = (.ok v, { tree := t }) →
      Steady t t' (k v) w) :
    Steady t t' (act >>= k) w := by
  intro c h
  obtain ⟨v, mid, hfirst, hrest⟩ := exists_of_result_bind h
  obtain ⟨rfl, hfirst'⟩ := hact v mid hfirst
  obtain ⟨rfl, hrest'⟩ := hk v hfirst c hrest
  exact ⟨rfl, by rw [result_bind_of_ok hfirst', hrest']⟩

/-- A step for each of some things. -/
lemma steady_mapM {f : α → Action β} {xs : List α} {ys : List β}
    (h : ∀ x ∈ xs, ∀ y ∈ ys, Steady t t' (f x) y) :
    Steady t t' (xs.mapM f) ys := by
  induction xs generalizing ys with
  | nil => exact steady_pure [] ys
  | cons x xs ih =>
      rw [List.mapM_cons]
      intro c hc
      obtain ⟨y, mid, hfirst, hc⟩ := exists_of_result_bind hc
      obtain ⟨rest, last, hrest, hc⟩ := exists_of_result_bind hc
      obtain ⟨hys, rfl⟩ := Prod.mk.inj hc
      rw [← Except.ok.inj hys] at h ⊢
      obtain ⟨rfl, hfirst'⟩ :=
        h x List.mem_cons_self y List.mem_cons_self mid hfirst
      obtain ⟨rfl, hrest'⟩ := ih (fun x' hx' y' hy' =>
        h x' (List.mem_cons_of_mem x hx') y' (List.mem_cons_of_mem y hy'))
        last hrest
      exact ⟨rfl, by
        rw [result_bind_of_ok hfirst', result_bind_of_ok hrest',
          result_pure]⟩

/-- Each of some things has given its value. -/
lemma forall₂_of_result_mapM {f : α → Action β} {xs : List α}
    {ys : List β} {c : Console} (hf : ∀ x y, Steady t t (f x) y)
    (h : (xs.mapM f).result { tree := t } = (.ok ys, c)) :
    List.Forall₂
      (fun x y => (f x).result { tree := t } = (.ok y, { tree := t }))
      xs ys := by
  induction xs generalizing ys c with
  | nil =>
      rw [← Except.ok.inj (Prod.mk.inj h).1]
      exact .nil
  | cons x xs ih =>
      rw [List.mapM_cons] at h
      obtain ⟨y, mid, hfirst, h⟩ := exists_of_result_bind h
      obtain ⟨rfl, -⟩ := hf x y mid hfirst
      obtain ⟨rest, last, hrest, h⟩ := exists_of_result_bind h
      rw [← Except.ok.inj (Prod.mk.inj h).1]
      exact .cons hfirst (ih hrest)

end Action

open HeaderBinding.Action

variable {s : Station} {a : Arguments} {t t' : FileTree} {c c' : Console}

/-! ### Places -/

/-- The place that a text means, if it means one. -/
def Station.place? (s : Station) (text : String) : Option Path :=
  (Route.ofText text).resolve? s.folder

lemma result_place_eq_ok_iff {text : String} {p : Path} :
    (s.place text).result c = (.ok p, c')
      ↔ s.place? text = some p ∧ c' = c := by
  rw [Station.place, Station.place?]
  split
  · rename_i q hq
    rw [hq, result_pure, Prod.mk.injEq, Except.ok.injEq, Option.some.injEq,
      eq_comm (a := c)]
  · rename_i hnone
    rw [hnone, result_throw]
    simp

lemma steady_place (text : String) (p : Path) :
    Steady t t' (s.place text) p :=
  steady_of_iff (P := fun _ => s.place? text = some p)
    (fun _ _ => result_place_eq_ok_iff) id

/-! ### Settings -/

lemma steady_liftExcept {α : Type} (r : Except CommandFault α) (v : α) :
    Steady t t' (readSettingsFile.liftExcept r) v := by
  cases r with
  | ok w => exact steady_pure w v
  | error f => exact steady_throw f v

/-- The settings of a file depend on its text alone. -/
lemma steady_readSettingsFile {p : Path} (h : t'.textAt? p = t.textAt? p)
    (settings : Settings) : Steady t t' (readSettingsFile s p) settings := by
  refine steady_bind (fun text => ?_) fun text _ => ?_
  · exact steady_of_iff
      (P := fun t => t.textAt? p = some (String.ofList text))
      (fun _ _ => result_loadText_eq_ok_iff) h.trans
  · split
    · exact steady_throw _ _
    · exact steady_bind (steady_liftExcept _) fun _ _ => steady_pure _ _

/-- The place of the settings file, if one is named. -/
def Station.configPlace? (s : Station) (a : Arguments) : Option Path :=
  (nonempty? a.config?).bind s.place?

lemma steady_readSettings
    (h : ∀ p, s.configPlace? a = some p → t'.textAt? p = t.textAt? p)
    (overrides : Overrides) (settings : Settings) :
    Steady t t' (readSettings s a.config? overrides) settings := by
  rw [readSettings]
  cases hconfig : nonempty? a.config? with
  | none => exact steady_pure _ _
  | some text =>
      refine steady_bind (steady_place text) fun p hp => ?_
      obtain ⟨hp, -⟩ := result_place_eq_ok_iff.mp hp
      refine steady_bind (steady_readSettingsFile (h p ?_))
        fun _ _ => steady_pure _ _
      rw [Station.configPlace?, hconfig, Option.bind_some, hp]

/-! ### Headers -/

/-- What can be looked up stays where it is. -/
lemma isOverlong_eq_false_of_has (ht : t.IsGrounded) {p : Path}
    (hlong : t.isOverlong p = false) (hp : t.has p = true) :
    t'.isOverlong p = false :=
  isOverlong_of_isShort (ht.isShort_of_has hp hlong) t'

lemma result_namedHeader_eq_ok_iff {text : String} {p : Path} :
    (namedHeader s text).result c = (.ok p, c')
      ↔ (s.place? text = some p ∧ c.tree.isOverlong p = false
        ∧ c.tree.isFile p = true) ∧ c' = c := by
  constructor
  · intro h
    obtain ⟨q, mid, hplace, hrest⟩ := exists_of_result_bind h
    obtain ⟨hq, rfl⟩ := result_place_eq_ok_iff.mp hplace
    obtain ⟨e?, last, hlook, hrest⟩ := exists_of_result_bind hrest
    obtain ⟨hlong, rfl, rfl⟩ := result_lookUp_eq_ok_iff.mp hlook
    split at hrest
    · rename_i hfile
      obtain ⟨hp, rfl⟩ := Prod.mk.inj hrest
      rw [← Except.ok.inj hp]
      exact ⟨⟨hq, hlong, hfile⟩, rfl⟩
    · cases hrest
  · rintro ⟨⟨hp, hlong, hfile⟩, rfl⟩
    rw [namedHeader, result_bind_of_ok
      (result_place_eq_ok_iff.mpr ⟨hp, rfl⟩), result_bind_of_ok
      (result_lookUp_eq_ok_iff.mpr ⟨hlong, rfl, rfl⟩), ← FileTree.isFile,
      if_pos hfile, result_pure]

/-- A header that is named is found where the same stands at its place. -/
lemma steady_namedHeader (ht : t.IsGrounded) (text : String) {p : Path}
    (hp : t'.entry? p = t.entry? p) :
    Steady t t' (namedHeader s text) p := by
  refine steady_of_iff
    (P := fun t => s.place? text = some p ∧ t.isOverlong p = false
      ∧ t.isFile p = true)
    (fun _ _ => result_namedHeader_eq_ok_iff) ?_
  rintro ⟨hplace, hlong, hfile⟩
  refine ⟨hplace, isOverlong_eq_false_of_has ht hlong ?_, ?_⟩
  · exact Option.isSome_of_any hfile
  · rw [FileTree.isFile, hp]
    exact hfile

lemma result_bundlePlaces_eq_ok_iff {bundle : Path}
    {slice? : Option String} {places : List Path} :
    (bundlePlaces s bundle slice?).result c = (.ok places, c')
      ↔ (c.tree.isOverlong bundle = false
        ∧ bundleHeaders c.tree bundle slice? s.platform = .ok places)
        ∧ c' = c := by
  constructor
  · intro h
    obtain ⟨u, mid, hdiscard, hrest⟩ := exists_of_result_bind h
    obtain ⟨e?, hlook⟩ := result_discard_eq_ok_iff.mp hdiscard
    obtain ⟨hlong, -, rfl⟩ := result_lookUp_eq_ok_iff.mp hlook
    rw [result_bind_of_ok (result_currentFiles _)] at hrest
    split at hrest
    · rename_i found hfound
      obtain ⟨hplaces, rfl⟩ := Prod.mk.inj hrest
      rw [← Except.ok.inj hplaces]
      exact ⟨⟨hlong, hfound⟩, rfl⟩
    · cases hrest
  · rintro ⟨⟨hlong, hplaces⟩, rfl⟩
    have hdiscard : (discard (lookUp bundle)).result c' = (.ok ⟨⟩, c') :=
      result_discard_eq_ok_iff.mpr
        ⟨_, result_lookUp_eq_ok_iff.mpr ⟨hlong, rfl, rfl⟩⟩
    rw [bundlePlaces, result_bind_of_ok hdiscard,
      result_bind_of_ok (result_currentFiles c'), hplaces]
    exact result_pure places c'

/-- A bundle with headers to look for is a folder. -/
lemma isFolder_of_bundleHeaders {bundle : Path} {slice? : Option String}
    {platform : String} {places : List Path}
    (h : bundleHeaders t bundle slice? platform = .ok places) :
    t.isFolder bundle = true := by
  by_contra hfolder
  rw [bundleHeaders, sliceNames?, if_neg hfolder] at h
  cases h

/-- The headers of a bundle are found where the same stands below it. -/
lemma steady_bundlePlaces (ht : t.IsGrounded) {bundle : Path}
    (h : t.isFolder bundle = true → SameBelow bundle t t')
    (slice? : Option String) (places : List Path) :
    Steady t t' (bundlePlaces s bundle slice?) places := by
  refine steady_of_iff
    (P := fun t => t.isOverlong bundle = false
      ∧ bundleHeaders t bundle slice? s.platform = .ok places)
    (fun _ _ => result_bundlePlaces_eq_ok_iff) ?_
  rintro ⟨hlong, hplaces⟩
  have hfolder := isFolder_of_bundleHeaders hplaces
  refine ⟨isOverlong_eq_false_of_has ht hlong ?_, ?_⟩
  · rw [isFolder, decide_eq_true_eq] at hfolder
    rw [has, hfolder, Option.isSome_some]
  · rw [bundleHeaders_congr (h hfolder), hplaces]

/-- The place of the bundle, if one is named. -/
def Station.bundlePlace? (s : Station) (a : Arguments) : Option Path :=
  (nonempty? a.framework?).bind s.place?

lemma steady_frameworkPlaces (ht : t.IsGrounded)
    (h : ∀ p, s.bundlePlace? a = some p → t.isFolder p = true →
      SameBelow p t t')
    (places : List Path) : Steady t t' (frameworkPlaces s a) places := by
  rw [frameworkPlaces]
  cases hbundle : nonempty? a.framework? with
  | none =>
      dsimp only
      split
      · exact steady_throw _ _
      · exact steady_pure _ _
  | some text =>
      refine steady_bind (steady_place text) fun p hp => ?_
      obtain ⟨hp, -⟩ := result_place_eq_ok_iff.mp hp
      refine steady_bind (steady_bundlePlaces ht (h p ?_) _) fun _ _ => ?_
      · rw [Station.bundlePlace?, hbundle, Option.bind_some, hp]
      · dsimp only
        split
        · exact steady_throw _ _
        · exact steady_pure _ _

/-- What a header declares depends on its octets alone. -/
lemma steady_readHeaderFile {p : Path} (h : t'.entry? p = t.entry? p)
    (rules : MacroRules) (header : Header) :
    Steady t t' (readHeaderFile rules p) header := by
  refine steady_bind (fun octets => ?_) fun _ _ => steady_pure _ _
  exact steady_of_iff (P := fun t => t.entry? p = some (.file octets))
    (fun _ _ => result_loadOctets_eq_ok_iff) h.trans

/-- A header that was read comes from a file, and has its name. -/
lemma of_result_readHeaderFile {rules : MacroRules} {p : Path}
    {header : Header}
    (h : (readHeaderFile rules p).result c = (.ok header, c')) :
    c.tree.has p = true ∧ header.file = p.name := by
  obtain ⟨octets, mid, hload, hrest⟩ := exists_of_result_bind h
  obtain ⟨hentry, -⟩ := result_loadOctets_eq_ok_iff.mp hload
  rw [← Except.ok.inj (Prod.mk.inj hrest).1, has, hentry]
  exact ⟨rfl, rfl⟩

/-! ### The input of a command -/

/-- From one tree to another, nothing has changed that the input depends
on: the settings, what is below the bundle, and the headers. -/
structure InputKept (s : Station) (a : Arguments) (places : List Path)
    (t t' : FileTree) : Prop where
  grounded : t.IsGrounded
  config : ∀ p, s.configPlace? a = some p → t'.textAt? p = t.textAt? p
  bundle : ∀ p, s.bundlePlace? a = some p → t.isFolder p = true →
    SameBelow p t t'
  headers : ∀ p ∈ places, t'.entry? p = t.entry? p

lemma steady_headerPlaces {places : List Path}
    (h : InputKept s a places t t') :
    Steady t t' (headerPlaces s a) places := by
  intro c hc
  obtain ⟨named, mid, hnamed, hc⟩ := exists_of_result_bind hc
  obtain ⟨found, last, hfound, hc⟩ := exists_of_result_bind hc
  dsimp only at hc
  split at hc
  · cases hc
  rename_i hsome
  obtain ⟨hplaces, rfl⟩ := Prod.mk.inj hc
  rw [← Except.ok.inj hplaces] at h ⊢
  have hkept : ∀ p ∈ named, t'.entry? p = t.entry? p :=
    fun p hp => h.headers p (List.mem_append_left _ hp)
  obtain ⟨rfl, hnamed'⟩ := steady_mapM
    (fun text _ p hp => steady_namedHeader h.grounded text (hkept p hp))
    mid hnamed
  obtain ⟨rfl, hfound'⟩ :=
    steady_frameworkPlaces h.grounded h.bundle found last hfound
  refine ⟨rfl, ?_⟩
  rw [headerPlaces, result_bind_of_ok hnamed', result_bind_of_ok hfound']
  dsimp only
  rw [if_neg hsome, result_pure]

/-- The same input is read again where it is kept. -/
theorem steady_readInput {places : List Path}
    (hplaces : (headerPlaces s a).result { tree := t }
      = (.ok places, { tree := t }))
    (h : InputKept s a places t t') (input : Settings × List Header) :
    Steady t t' (readInput s a) input := by
  have hfound : ∀ v c, (headerPlaces s a).result { tree := t } = (.ok v, c) →
      places = v := by
    intro v c hc
    rw [hplaces] at hc
    exact Except.ok.inj (Prod.mk.inj hc).1
  refine steady_bind (steady_readSettings h.config a.settings)
    fun settings _ => ?_
  refine steady_bind (fun v c hc => ?_) fun v hv => ?_
  · obtain rfl := hfound v c hc
    exact steady_headerPlaces h c hc
  · obtain rfl := hfound v _ hv
    refine steady_bind (fun headers => steady_mapM fun p hp header _ => ?_)
      fun _ _ => steady_pure _ _
    exact steady_readHeaderFile (h.headers p hp) settings.rules header

end HeaderBinding
