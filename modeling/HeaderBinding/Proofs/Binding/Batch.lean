/-
Binding some headers together, and binding them as one.

* `Header.joined`: the header with the declarations of all of them;
* `TypeContext.ofHeaders_joined`: it gives the same names to types;
* `ofKind_declarations`: the declarations of a header, by their kind;
* `assembleHeader_joined`: bound as one, the headers get the declarations
  that they get together, kind by kind;
* `assembleHeader_joined_doc`: a class in one header, and its category in
  another.
-/
import Mathlib.Data.List.Basic
import HeaderBinding.Header.Read
import HeaderBinding.Proofs.Binding.Merging

namespace HeaderBinding

/-- Some headers as one, which declares what they declare, in their
order. -/
def Header.joined (file : String) (hs : List Header) : Header :=
  { file
    interfaces := hs.flatMap (·.interfaces)
    protocols := hs.flatMap (·.protocols)
    enums := hs.flatMap (·.enums)
    structs := hs.flatMap (·.structs)
    aliases := hs.flatMap (·.aliases)
    functions := hs.flatMap (·.functions)
    forward :=
      ⟨hs.flatMap (·.forward.classes), hs.flatMap (·.forward.protocols)⟩
    diagnostics := hs.flatMap (·.diagnostics) }

/-! ### The names of types -/

/-- Folds whose steps do not disturb one another can change places. -/
lemma foldl_foldl_comm {α β γ : Type} {f : α → β → α} {g : α → γ → α}
    (h : ∀ a b c, f (g a c) b = g (f a b) c) (bs : List β) (cs : List γ)
    (a : α) : bs.foldl f (cs.foldl g a) = cs.foldl g (bs.foldl f a) := by
  have hstep : ∀ (cs : List γ) a b,
      f (cs.foldl g a) b = cs.foldl g (f a b) := by
    intro cs
    induction cs with
    | nil => exact fun _ _ => rfl
    | cons c cs ih =>
        intro a b
        rw [List.foldl_cons, List.foldl_cons, ih, h]
  induction bs generalizing a with
  | nil => rfl
  | cons b bs ih => rw [List.foldl_cons, List.foldl_cons, hstep, ih]

namespace TypeContext

variable (ctx : TypeContext)

lemma addAlias_addEnum (a : Alias) (e : EnumDef) :
    (ctx.addEnum e).addAlias a = (ctx.addAlias a).addEnum e := by
  unfold addAlias addEnum
  repeat' split
  all_goals rfl

lemma addAlias_addStruct (a : Alias) (s : StructDef) :
    (ctx.addStruct s).addAlias a = (ctx.addAlias a).addStruct s := by
  unfold addAlias addStruct
  repeat' split
  all_goals rfl

lemma addEnum_addStruct (e : EnumDef) (s : StructDef) :
    (ctx.addStruct s).addEnum e = (ctx.addEnum e).addStruct s := by
  unfold addEnum addStruct
  repeat' split
  all_goals rfl

/-- The aliases, the enumerations and the structures of some headers can
be taken one sort after the other. -/
lemma foldl_addHeader (hs : List Header) :
    hs.foldl addHeader ctx
      = (hs.flatMap (·.structs)).foldl addStruct
        ((hs.flatMap (·.enums)).foldl addEnum
          ((hs.flatMap (·.aliases)).foldl addAlias ctx)) := by
  induction hs generalizing ctx with
  | nil => rfl
  | cons h hs ih =>
      simp only [List.foldl_cons, List.flatMap_cons, List.foldl_append]
      rw [ih, addHeader, foldl_foldl_comm addAlias_addStruct,
        foldl_foldl_comm addAlias_addEnum,
        foldl_foldl_comm addEnum_addStruct]

/-- The headers as one give the same names to types. -/
theorem ofHeaders_joined (file : String) (hs : List Header) :
    ofHeaders [Header.joined file hs] = ofHeaders hs :=
  (foldl_addHeader {} hs).symm

end TypeContext

/-! ### Declarations by kind -/

/-- The declarations of one kind. -/
def ofKind (kind : DeclarationKind) (ds : List Declaration) :
    List Declaration :=
  ds.filter (·.kind = kind)

lemma ofKind_append (kind : DeclarationKind) (ds es : List Declaration) :
    ofKind kind (ds ++ es) = ofKind kind ds ++ ofKind kind es :=
  List.filter_append ..

/-- Declarations of the same kind are all asked for, or none is. -/
lemma ofKind_of_kind {kind own : DeclarationKind} {ds : List Declaration}
    (h : ∀ d ∈ ds, d.kind = own) :
    ofKind kind ds = if own = kind then ds else [] := by
  split
  · rename_i heq
    exact List.filter_eq_self.mpr fun d hd =>
      decide_eq_true ((h d hd).trans heq)
  · rename_i hne
    exact List.filter_eq_nil_iff.mpr fun d hd heq =>
      hne ((h d hd).symm.trans (of_decide_eq_true heq))

/-- A category is declared as one, and a class as a class. -/
def Interface.boundKind (i : Interface) : DeclarationKind :=
  if i.isCategory then .category else .interface

lemma kind_bindInterface (ctx : TypeContext) (i : Interface) :
    (bindInterface ctx i).kind = i.boundKind := by
  unfold bindInterface Interface.boundKind Interface.isCategory
  cases i.category? <;> rfl

lemma Interface.boundKind_ne (i : Interface) {kind : DeclarationKind}
    (hclass : kind ≠ .interface) (hcategory : kind ≠ .category) :
    i.boundKind ≠ kind := by
  unfold Interface.boundKind
  split
  · exact hcategory.symm
  · exact hclass.symm

/-- The interfaces that are declared as one kind, bound. -/
def Header.boundInterfaces (ctx : TypeContext) (h : Header)
    (kind : DeclarationKind) : List Declaration :=
  (h.interfaces.filter (·.boundKind = kind)).map (bindInterface ctx)

/-- What a header declares of one kind. -/
def Header.declarationsOf (ctx : TypeContext) (h : Header) :
    DeclarationKind → List Declaration
  | .enum => bindEnums 0 h.enums
  | .struct => bindStructs ctx h.structs
  | .functions => bindFunctions ctx h.functions
  | .constants => bindConstants ctx h.functions
  | .protocol => h.protocols.map (bindProtocol ctx)
  | .interface => h.boundInterfaces ctx .interface
  | .category => h.boundInterfaces ctx .category
  | .delegate => h.boundBlocks.map (bindDelegate ctx)

lemma kind_of_mem_bindFunctions {ctx : TypeContext} {fs : List Function} :
    ∀ d ∈ bindFunctions ctx fs, d.kind = .functions := by
  unfold bindFunctions
  split <;> simp

lemma kind_of_mem_bindConstants {ctx : TypeContext} {fs : List Function} :
    ∀ d ∈ bindConstants ctx fs, d.kind = .constants := by
  unfold bindConstants
  split <;> simp

lemma ofKind_map_bindInterface (ctx : TypeContext) (h : Header)
    (kind : DeclarationKind) :
    ofKind kind (h.interfaces.map (bindInterface ctx))
      = h.boundInterfaces ctx kind := by
  rw [ofKind, List.filter_map, Header.boundInterfaces]
  refine congrArg _ (List.filter_congr fun i _ => ?_)
  rw [Function.comp_apply, kind_bindInterface]

/-- Other kinds are not those of interfaces. -/
lemma boundInterfaces_eq_nil (ctx : TypeContext) (h : Header)
    {kind : DeclarationKind} (hclass : kind ≠ .interface)
    (hcategory : kind ≠ .category) : h.boundInterfaces ctx kind = [] := by
  rw [Header.boundInterfaces, List.map_eq_nil_iff, List.filter_eq_nil_iff]
  exact fun i _ heq =>
    i.boundKind_ne hclass hcategory (of_decide_eq_true heq)

/-- The declarations of a header, by their kind. -/
theorem ofKind_declarations (ctx : TypeContext) (h : Header)
    (kind : DeclarationKind) :
    ofKind kind (h.declarations ctx) = h.declarationsOf ctx kind := by
  have henums : ∀ d ∈ bindEnums 0 h.enums, d.kind = .enum := by
    intro d hd
    obtain ⟨e, -, name, rfl⟩ := mem_bindEnums hd
    rfl
  have hstructs : ∀ d ∈ bindStructs ctx h.structs, d.kind = .struct :=
    List.forall_mem_map.mpr fun _ _ => rfl
  have hprotocols : ∀ d ∈ h.protocols.map (bindProtocol ctx),
      d.kind = .protocol :=
    List.forall_mem_map.mpr fun _ _ => rfl
  have hblocks : ∀ d ∈ h.boundBlocks.map (bindDelegate ctx),
      d.kind = .delegate :=
    List.forall_mem_map.mpr fun _ _ => rfl
  rw [Header.declarations, ← Header.boundBlocks]
  simp only [ofKind_append, ofKind_of_kind henums, ofKind_of_kind hstructs,
    ofKind_of_kind kind_of_mem_bindFunctions,
    ofKind_of_kind kind_of_mem_bindConstants, ofKind_of_kind hprotocols,
    ofKind_map_bindInterface, ofKind_of_kind hblocks]
  cases kind <;>
    simp [Header.declarationsOf, boundInterfaces_eq_nil]

/-- The members for functions, without the class that gathers them. -/
lemma flatMap_members_bindFunctions (ctx : TypeContext)
    (fs : List Function) :
    (bindFunctions ctx fs).flatMap (·.members)
      = (fs.filter fun f => !f.isInline && !f.isConstant).map
        (bindFunction ctx) := by
  rw [bindFunctions]
  split
  · rename_i hnone
    rw [hnone]
    rfl
  · rw [List.flatMap_singleton]

lemma flatMap_members_bindConstants (ctx : TypeContext)
    (fs : List Function) :
    (bindConstants ctx fs).flatMap (·.members)
      = (fs.filter fun f => !f.isInline && f.isConstant).map
        (bindConstant ctx) := by
  rw [bindConstants]
  split
  · rename_i hnone
    rw [hnone]
    rfl
  · rw [List.flatMap_singleton]

/-! ### Enumerations with a name -/

/-- The name of the enumeration, if it has one that is not empty. -/
def EnumDef.properName? (e : EnumDef) : Option String :=
  e.name?.filter (· ≠ "")

/-- The enumeration is declared: it has a name or a case. -/
def EnumDef.isBound (e : EnumDef) : Bool :=
  e.properName?.isSome || !e.cases.isEmpty

/-- The declarations for the enumerations with a name, among all those of
the header.  Those for enumerations come in the order of the enumerations
that are declared. -/
def Header.namedEnums (h : Header) (ds : List Declaration) :
    List Declaration :=
  (((h.enums.filter (·.isBound)).zip (ofKind .enum ds)).filter
    (·.1.properName?.isSome)).map (·.2)

lemma EnumDef.isBound_of_name {e : EnumDef} {name : String}
    (h : e.properName? = some name) : e.isBound = true := by
  rw [EnumDef.isBound, h, Option.isSome_some, Bool.true_or]

lemma EnumDef.isBound_of_no_name {e : EnumDef} (h : e.properName? = none) :
    e.isBound = !e.cases.isEmpty := by
  rw [EnumDef.isBound, h, Option.isSome_none, Bool.false_or]

lemma length_bindEnums (anonymous : Nat) (es : List EnumDef) :
    (bindEnums anonymous es).length = (es.filter (·.isBound)).length := by
  fun_induction bindEnums anonymous es with
  | case1 => rfl
  | case2 anonymous e es name hname ih =>
      simp [EnumDef.isBound_of_name hname, ih]
  | case3 anonymous e es hname hcases ih =>
      simp [EnumDef.isBound_of_no_name hname, hcases, ih]
  | case4 anonymous e es hname hcases ih =>
      simp [EnumDef.isBound_of_no_name hname, hcases, ih]

/-- Those with a name are declared under it. -/
lemma namedEnums_bindEnums (anonymous : Nat) (es : List EnumDef) :
    (((es.filter (·.isBound)).zip (bindEnums anonymous es)).filter
        (·.1.properName?.isSome)).map (·.2)
      = es.filterMap fun e => e.properName?.map (bindEnum e) := by
  fun_induction bindEnums anonymous es with
  | case1 => rfl
  | case2 anonymous e es name hname ih =>
      have hproper : e.properName? = some name := hname
      simp [EnumDef.isBound_of_name hname, hproper, ih]
  | case3 anonymous e es hname hcases ih =>
      have hproper : e.properName? = none := hname
      simp [EnumDef.isBound_of_no_name hname, hproper, hcases, ih]
  | case4 anonymous e es hname hcases ih =>
      have hproper : e.properName? = none := hname
      simp [EnumDef.isBound_of_no_name hname, hproper, hcases, ih]

/-- Each enumeration that is declared has one declaration, so that none of
them is left out where they are paired. -/
theorem length_ofKind_enum (ctx : TypeContext) (h : Header) :
    (ofKind .enum (h.declarations ctx)).length
      = (h.enums.filter (·.isBound)).length := by
  rw [ofKind_declarations]
  exact length_bindEnums 0 h.enums

/-- The declarations of enumerations do not depend on the rest of the
header. -/
lemma namedEnums_declarations (ctx : TypeContext) {g h : Header}
    (hsame : g.enums = h.enums) :
    h.namedEnums (g.declarations ctx)
      = h.enums.filterMap fun e => e.properName?.map (bindEnum e) := by
  rw [Header.namedEnums, ofKind_declarations, Header.declarationsOf, hsame,
    namedEnums_bindEnums]

lemma zipWith_namedEnums (ctx : TypeContext) {gs hs : List Header}
    (hsame : gs.map (·.enums) = hs.map (·.enums)) :
    List.zipWith Header.namedEnums hs (gs.map (Header.declarations ctx))
      = hs.map fun h =>
        h.enums.filterMap fun e => e.properName?.map (bindEnum e) := by
  induction hs generalizing gs with
  | nil => rfl
  | cons h hs ih =>
      cases gs with
      | nil => cases hsame
      | cons g gs =>
          obtain ⟨henums, hrest⟩ := List.cons_eq_cons.mp hsame
          rw [List.map_cons, List.zipWith_cons_cons,
            namedEnums_declarations ctx henums, ih hrest, List.map_cons]

/-! ### Headers as one -/

lemma flatMap_mergeCategories {α : Type} {f : Header → List α}
    (hf : ∀ h is, f { h with interfaces := is } = f h) (hs : List Header) :
    (mergeCategories hs).flatMap f = hs.flatMap f := by
  rw [List.flatMap_def, map_mergeCategories hf, ← List.flatMap_def]

/-- Categories can be folded before or after headers are put together. -/
lemma merged_joined (file : String) (hs : List Header) :
    (Header.joined file hs).merged
      = Header.joined file (mergeCategories hs) := by
  simp only [Header.joined, Header.merged, interfaces_mergeCategories,
    flatMap_mergeCategories (f := Header.protocols) fun _ _ => rfl,
    flatMap_mergeCategories (f := Header.enums) fun _ _ => rfl,
    flatMap_mergeCategories (f := Header.structs) fun _ _ => rfl,
    flatMap_mergeCategories (f := Header.aliases) fun _ _ => rfl,
    flatMap_mergeCategories (f := Header.functions) fun _ _ => rfl,
    flatMap_mergeCategories (f := (·.forward.classes)) fun _ _ => rfl,
    flatMap_mergeCategories (f := (·.forward.protocols)) fun _ _ => rfl,
    flatMap_mergeCategories (f := Header.diagnostics) fun _ _ => rfl]

/-- What is assembled of headers as one, in the terms of all of them. -/
lemma assembleHeader_joined_eq (file : String) (hs : List Header) :
    assembleHeader (.joined file hs)
      = (Header.joined file (mergeCategories hs)).declarations
        (.ofHeaders hs) := by
  rw [assembleHeader_eq, merged_joined, TypeContext.ofHeader,
    TypeContext.ofHeaders_joined]

/-- The kinds whose declarations speak of one thing each. -/
def singleKinds : List DeclarationKind :=
  [.struct, .protocol, .interface, .category, .delegate]

/-- The kinds whose declarations gather all functions or variables. -/
def gatheringKinds : List DeclarationKind :=
  [.functions, .constants]

lemma declarationsOf_joined (ctx : TypeContext) (file : String)
    (hs : List Header) {kind : DeclarationKind}
    (hkind : kind ∈ singleKinds) :
    (Header.joined file hs).declarationsOf ctx kind
      = hs.flatMap (Header.declarationsOf ctx · kind) := by
  simp only [singleKinds, List.mem_cons, List.not_mem_nil, or_false] at hkind
  rcases hkind with rfl | rfl | rfl | rfl | rfl <;>
    simp only [Header.declarationsOf, Header.joined, bindStructs,
      Header.boundInterfaces, Header.boundBlocks, List.filter_flatMap,
      List.map_flatMap]

lemma members_declarationsOf_joined (ctx : TypeContext) (file : String)
    (hs : List Header) {kind : DeclarationKind}
    (hkind : kind ∈ gatheringKinds) :
    ((Header.joined file hs).declarationsOf ctx kind).flatMap (·.members)
      = hs.flatMap fun h =>
        (h.declarationsOf ctx kind).flatMap (·.members) := by
  simp only [gatheringKinds, List.mem_cons, List.not_mem_nil,
    or_false] at hkind
  rcases hkind with rfl | rfl <;>
    simp only [Header.declarationsOf, flatMap_members_bindFunctions,
      flatMap_members_bindConstants, Header.joined, List.filter_flatMap,
      List.map_flatMap]

/-- Bound as one, headers get the declarations that they get together: of
each kind the same in the same order, for the enumerations with a name the
same, and as functions and variables the same members. -/
theorem assembleHeader_joined (file : String) (hs : List Header) :
    (∀ kind ∈ singleKinds,
        ofKind kind (assembleHeader (.joined file hs))
          = (assembleHeaders hs).flatMap (ofKind kind))
      ∧ (Header.joined file hs).namedEnums
          (assembleHeader (.joined file hs))
        = (List.zipWith Header.namedEnums hs (assembleHeaders hs)).flatten
      ∧ ∀ kind ∈ gatheringKinds,
        (ofKind kind (assembleHeader (.joined file hs))).flatMap (·.members)
          = (assembleHeaders hs).flatMap fun ds =>
            (ofKind kind ds).flatMap (·.members) := by
  refine ⟨fun kind hkind => ?_, ?_, fun kind hkind => ?_⟩
  · rw [assembleHeader_joined_eq, ofKind_declarations,
      declarationsOf_joined _ _ _ hkind, assembleHeaders, List.flatMap_map]
    exact List.flatMap_congr fun h _ => (ofKind_declarations _ h kind).symm
  · have henums : (mergeCategories hs).map (·.enums) = hs.map (·.enums) :=
      map_mergeCategories (fun _ _ => rfl) hs
    rw [assembleHeader_joined_eq, assembleHeaders,
      zipWith_namedEnums _ henums, namedEnums_declarations]
    · rw [Header.joined, List.filterMap_flatMap, List.flatMap_def]
    · exact flatMap_mergeCategories (f := Header.enums) (fun _ _ => rfl) hs
  · rw [assembleHeader_joined_eq, ofKind_declarations,
      members_declarationsOf_joined _ _ _ hkind, assembleHeaders,
      List.flatMap_map]
    exact List.flatMap_congr fun h _ => by rw [ofKind_declarations]

/-- Two headers, where the second adds to the class of the first; each has
an enumeration without a name and a function. -/
def docHeaders : List Header :=
  [readHeader {} "Doc.h"
    "@interface Doc\n@end\nenum { idle };\nint count(void);\n",
   readHeader {} "Doc+Save.h"
    "@interface Doc (Save)\n- (void)save;\n@end\nenum { busy };\nint size(void);\n"]

/-- Together and as one, the class gets the member of its category, and
there are two functions. -/
theorem assembleHeader_joined_doc :
    (DeclarationKind.interface ∈ singleKinds
        ∧ (ofKind .interface (assembleHeader (.joined "" docHeaders))).map
          (·.members.map (·.name)) = [["Save"]]
        ∧ ofKind .interface (assembleHeader (.joined "" docHeaders))
          = (assembleHeaders docHeaders).flatMap (ofKind .interface))
      ∧ (Header.joined "" docHeaders).namedEnums
          (assembleHeader (.joined "" docHeaders))
        = (List.zipWith Header.namedEnums docHeaders
          (assembleHeaders docHeaders)).flatten
      ∧ DeclarationKind.functions ∈ gatheringKinds
        ∧ (ofKind .functions (assembleHeader (.joined "" docHeaders))).map
          (·.members.map (·.name)) = [["count", "size"]]
        ∧ (ofKind .functions (assembleHeader (.joined "" docHeaders))).flatMap
            (·.members)
          = (assembleHeaders docHeaders).flatMap fun ds =>
            (ofKind .functions ds).flatMap (·.members) := by
  obtain ⟨hsingle, henums, hgather⟩ := assembleHeader_joined "" docHeaders
  -- one computation, in which the headers are read and bound only once
  have hnames : (ofKind .interface (assembleHeader (.joined "" docHeaders))).map
        (·.members.map (·.name)) = [["Save"]]
      ∧ (ofKind .functions (assembleHeader (.joined "" docHeaders))).map
        (·.members.map (·.name)) = [["count", "size"]] := by
    decide +kernel
  exact ⟨⟨by decide, hnames.1, hsingle _ (by decide)⟩, henums,
    by decide, hnames.2, hgather _ (by decide)⟩

end HeaderBinding
