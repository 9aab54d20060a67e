/-
Declarations in the terms of contexts that are alike.

* `bindMethod`, `bindProperty`, `bindField`, `bindFunction`,
  `bindConstant`: the members are the same;
* `declarations`: so are all declarations of a header.
-/
import HeaderBinding.Binding.Assemble
import HeaderBinding.Proofs.Mapping.Alike

namespace HeaderBinding

namespace TypeContext.Alike

variable {ctx ctx' : TypeContext} (h : ctx.Alike ctx')
include h

/-! ### Places -/

lemma bindType (self? : Option String) (type : String) :
    bindType ctx self? type = bindType ctx' self? type :=
  congrArg splitUnsafe (h.mapType self? type)

lemma isNullableSlot (type : String) (marked inNonnullScope : Bool) :
    isNullableSlot ctx type marked inNonnullScope
      = isNullableSlot ctx' type marked inNonnullScope := by
  simp only [HeaderBinding.isNullableSlot, h.isObjectReference]

lemma isNullableIn (p : Property) :
    p.isNullableIn ctx = p.isNullableIn ctx' :=
  h.isNullableSlot _ _ _

lemma argumentSemantic? (p : Property) :
    argumentSemantic? ctx p = argumentSemantic? ctx' p := by
  simp only [HeaderBinding.argumentSemantic?, h.isEnum]

lemma isNullableParameter (inNonnullScope : Bool) (p : Parameter) :
    isNullableParameter ctx inNonnullScope p
      = isNullableParameter ctx' inNonnullScope p :=
  congrArg (isErrorOut p.type || ·) (h.isNullableSlot _ _ _)

lemma bindParameter (self? : Option String) (inNonnullScope : Bool) :
    bindParameter ctx self? inNonnullScope
      = bindParameter ctx' self? inNonnullScope := by
  funext p index
  rw [HeaderBinding.bindParameter, h.bindType, h.isNullableParameter,
    HeaderBinding.bindParameter]

lemma bindParameters (self? : Option String) (m : Method) :
    bindParameters ctx self? m = bindParameters ctx' self? m := by
  simp only [HeaderBinding.bindParameters, h.bindParameter]

/-! ### Members -/

lemma wantsAsync (m : Method) : m.wantsAsync ctx = m.wantsAsync ctx' := by
  simp only [Method.wantsAsync, h.blocks]

lemma bindConstructor (owner : String) :
    bindConstructor ctx owner = bindConstructor ctx' owner := by
  funext m
  simp only [HeaderBinding.bindConstructor, h.bindParameters]

lemma bindMethod (site : MemberSite) (onClass : Bool) :
    bindMethod ctx site onClass = bindMethod ctx' site onClass := by
  funext m
  simp only [HeaderBinding.bindMethod, h.bindType, h.bindParameters,
    h.isNullableSlot, h.wantsAsync]

lemma bindProperty (site : MemberSite) :
    bindProperty ctx site = bindProperty ctx' site := by
  funext p
  simp only [HeaderBinding.bindProperty, h.bindType, h.isNullableIn,
    h.argumentSemantic?]

lemma bindOptionalProperty :
    bindOptionalProperty ctx = bindOptionalProperty ctx' := by
  funext p
  simp only [HeaderBinding.bindOptionalProperty, bindGetter, bindSetter,
    h.bindType, h.isNullableIn, h.argumentSemantic?]

lemma bindField : bindField ctx = bindField ctx' := by
  funext f
  simp only [HeaderBinding.bindField, h.bindType, h.isObjectReference]

lemma bindFunction : bindFunction ctx = bindFunction ctx' := by
  funext f
  simp only [HeaderBinding.bindFunction, bindArgument, h.bindType]

lemma constantBase (type : String) :
    constantBase ctx type = constantBase ctx' type := by
  simp only [HeaderBinding.constantBase, h.isAlias, h.resolve]

lemma constantType (type : String) :
    constantType ctx type = constantType ctx' type := by
  rw [HeaderBinding.constantType, h.constantBase, h.bindType,
    HeaderBinding.constantType]

lemma bindConstant : bindConstant ctx = bindConstant ctx' := by
  funext f
  simp only [HeaderBinding.bindConstant, h.constantType]

/-! ### Declarations -/

lemma bindStruct : bindStruct ctx = bindStruct ctx' := by
  funext s
  rw [HeaderBinding.bindStruct, h.bindField, HeaderBinding.bindStruct]

lemma bindProtocolProperty :
    bindProtocolProperty ctx = bindProtocolProperty ctx' := by
  funext p
  simp only [HeaderBinding.bindProtocolProperty, h.bindProperty,
    h.bindOptionalProperty]

lemma bindProtocol : bindProtocol ctx = bindProtocol ctx' := by
  funext p
  simp only [HeaderBinding.bindProtocol, h.bindMethod,
    h.bindProtocolProperty]

lemma bindInstanceMethod (i : Interface) :
    bindInstanceMethod ctx i = bindInstanceMethod ctx' i := by
  funext m
  simp only [HeaderBinding.bindInstanceMethod, h.bindConstructor,
    h.bindMethod]

lemma bindInterface : bindInterface ctx = bindInterface ctx' := by
  funext i
  simp only [HeaderBinding.bindInterface, bindCategory, bindClass,
    bindInterfaceMembers, h.bindProperty, h.bindInstanceMethod,
    h.bindMethod]

lemma bindDelegate : bindDelegate ctx = bindDelegate ctx' := by
  funext a
  simp only [HeaderBinding.bindDelegate, bindBlockParameter, h.bindType]

/-- The declarations of a header are the same. -/
theorem declarations : Header.declarations ctx = Header.declarations ctx' := by
  funext g
  simp only [Header.declarations, bindStructs, bindFunctions, bindConstants,
    h.bindStruct, h.bindFunction, h.bindConstant, h.bindProtocol,
    h.bindInterface, h.bindDelegate]

end TypeContext.Alike

end HeaderBinding
