import Mathlib
import FormCompiler.Proofs.Frames

/-!
# Instructions without bodies

No instruction that has no body touches a stack, a scope or a place.  Some of
them emit other functions on the way: that is left to what goes elsewhere and
comes back.
-/

open Std.Do

set_option mvcgen.warning false

namespace FormCompiler

open Ir

variable {Result : Type} {frame : EmitFrame}

attribute [local irreducible] onBuilder

/-! ## Scalars -/

@[spec]
theorem Ir.Builder.stays_buildConstant {site : Builder.Site}
    (table : TypeTable) (type : TypeId) (literal : Form) :
    ⦃Builder.within site⦄ buildConstant table type literal
      ⦃⇓ _ => Builder.within site⦄ := by
  mvcgen [buildConstant]

@[spec]
theorem framed_emitConstant (items : List Form) :
    ⦃framed frame⦄ emitConstant items ⦃framedAnyhow frame⦄ := by
  mvcgen [emitConstant]

@[spec]
theorem framed_emitBinary (operator : BinaryOperator) (items : List Form) :
    ⦃framed frame⦄ emitBinary operator items ⦃framedAnyhow frame⦄ := by
  mvcgen [emitBinary]

@[spec]
theorem framed_comparedOperands (leftForm rightForm : Form) (type : TypeId) :
    ⦃framed frame⦄ comparedOperands leftForm rightForm type
      ⦃framedAnyhow frame⦄ := by
  mvcgen [comparedOperands]

@[spec]
theorem framed_buildComparison (comparison : Comparison) (typeForm : Form)
    (left right : Value) (name : String) :
    ⦃framed frame⦄ buildComparison comparison typeForm left right name
      ⦃⇓ _ => framed frame⦄ := by
  mvcgen [buildComparison]

attribute [spec] defineTruth

@[spec]
theorem framed_emitComparison (comparison : Comparison) (items : List Form) :
    ⦃framed frame⦄ emitComparison comparison items ⦃framedAnyhow frame⦄ := by
  mvcgen [emitComparison]

@[spec]
theorem framed_emitCompareInt (items : List Form) :
    ⦃framed frame⦄ emitCompareInt items ⦃framedAnyhow frame⦄ := by
  mvcgen [emitCompareInt]

@[spec]
theorem framed_emitCompareFloat (items : List Form) :
    ⦃framed frame⦄ emitCompareFloat items ⦃framedAnyhow frame⦄ := by
  mvcgen [emitCompareFloat]

@[spec]
theorem framed_throughSlot (name : String) (value : Value) :
    ⦃framed frame⦄ throughSlot name value ⦃framedAnyhow frame⦄ := by
  mvcgen [throughSlot]

@[spec]
theorem framed_emitCast (operator : CastOperator) (items : List Form) :
    ⦃framed frame⦄ emitCast operator items ⦃framedAnyhow frame⦄ := by
  mvcgen [emitCast]

/-! ## Storage -/

@[spec]
theorem framed_rejectType (use : String) (type : TypeId) :
    ⦃framed frame⦄ (rejectType use type : Handler Result)
      ⦃framedAnyhow frame⦄ := by
  mvcgen [rejectType]

@[spec]
theorem framed_initialValue (form : Form) (type : TypeId) :
    ⦃framed frame⦄ initialValue form type ⦃framedAnyhow frame⦄ := by
  mvcgen [initialValue]

@[spec]
theorem framed_emitVariable (items : List Form) :
    ⦃framed frame⦄ emitVariable items ⦃framedAnyhow frame⦄ := by
  mvcgen [emitVariable]

@[spec]
theorem framed_emitAssign (items : List Form) :
    ⦃framed frame⦄ emitAssign items ⦃framedAnyhow frame⦄ := by
  mvcgen [emitAssign]

@[spec]
theorem framed_emitAlloca (items : List Form) :
    ⦃framed frame⦄ emitAlloca items ⦃framedAnyhow frame⦄ := by
  mvcgen [emitAlloca]

@[spec]
theorem framed_loadThrough (destination : String) (type : TypeId)
    (form : Form) :
    ⦃framed frame⦄ loadThrough destination type form ⦃framedAnyhow frame⦄ := by
  mvcgen [loadThrough]

@[spec]
theorem framed_emitLoad (items : List Form) :
    ⦃framed frame⦄ emitLoad items ⦃framedAnyhow frame⦄ := by
  mvcgen [emitLoad]

@[spec]
theorem framed_emitDereference (items : List Form) :
    ⦃framed frame⦄ emitDereference items ⦃framedAnyhow frame⦄ := by
  mvcgen [emitDereference]

@[spec]
theorem framed_storeThrough (declared : Option TypeId)
    (pointerForm valueForm : Form) :
    ⦃framed frame⦄ storeThrough declared pointerForm valueForm
      ⦃framedAnyhow frame⦄ := by
  mvcgen [storeThrough]

@[spec]
theorem framed_emitStore (items : List Form) :
    ⦃framed frame⦄ emitStore items ⦃framedAnyhow frame⦄ := by
  mvcgen [emitStore]

@[spec]
theorem framed_globalOf (form : Form) (type : TypeId) (shape : String) :
    ⦃framed frame⦄ globalOf form type shape ⦃framedAnyhow frame⦄ := by
  mvcgen [globalOf]

@[spec]
theorem framed_emitLoadGlobal (items : List Form) :
    ⦃framed frame⦄ emitLoadGlobal items ⦃framedAnyhow frame⦄ := by
  mvcgen [emitLoadGlobal]

@[spec]
theorem framed_emitStoreGlobal (items : List Form) :
    ⦃framed frame⦄ emitStoreGlobal items ⦃framedAnyhow frame⦄ := by
  mvcgen [emitStoreGlobal]

@[spec]
theorem framed_emitAddress (items : List Form) :
    ⦃framed frame⦄ emitAddress items ⦃framedAnyhow frame⦄ := by
  mvcgen [emitAddress]

@[spec]
theorem framed_emitPointerOffset (negated : Bool) (items : List Form) :
    ⦃framed frame⦄ emitPointerOffset negated items ⦃framedAnyhow frame⦄ := by
  mvcgen [emitPointerOffset]

@[spec]
theorem framed_buildDistance (left right : Value) (leftName rightName : String)
    (elementSize : Nat) (type : TypeId) (bits : Nat) (name : String) :
    ⦃framed frame⦄
      buildDistance left right leftName rightName elementSize type bits name
      ⦃⇓ _ => framed frame⦄ := by
  mvcgen [buildDistance]

@[spec]
theorem framed_emitPointerDiff (items : List Form) :
    ⦃framed frame⦄ emitPointerDiff items ⦃framedAnyhow frame⦄ := by
  mvcgen [emitPointerDiff]

/-! ## Aggregates -/

@[spec]
theorem framed_emitIndex (items : List Form) :
    ⦃framed frame⦄ emitIndex items ⦃framedAnyhow frame⦄ := by
  mvcgen [emitIndex]

@[spec]
theorem framed_storeElements (array zero : Value) (name : String)
    (index : Nat) (values : List Value) :
    ⦃framed frame⦄ storeElements array zero name index values
      ⦃⇓ _ => framed frame⦄ := by
  induction values generalizing index with
  | nil => mvcgen [storeElements]
  | cons value values ih => mvcgen [storeElements, ih]

@[spec]
theorem framed_emitArrayLiteral (items : List Form) :
    ⦃framed frame⦄ emitArrayLiteral items ⦃framedAnyhow frame⦄ := by
  mvcgen [emitArrayLiteral]

@[spec]
theorem framed_aggregateBase (form : Form) (aggregate : TypeId) :
    ⦃framed frame⦄ aggregateBase form aggregate ⦃framedAnyhow frame⦄ := by
  mvcgen [aggregateBase]

@[spec]
theorem framed_structLayout (name : String) :
    ⦃framed frame⦄ structLayout name ⦃framedAnyhow frame⦄ := by
  mvcgen [structLayout]

@[spec]
theorem framed_structField (layout : StructLayout) (name field : String) :
    ⦃framed frame⦄ structField layout name field ⦃framedAnyhow frame⦄ := by
  mvcgen [structField]

@[spec]
theorem framed_literalFields (layout : StructLayout) (name shape : String)
    (forms : List Form) :
    ⦃framed frame⦄ literalFields layout name shape forms
      ⦃framedAnyhow frame⦄ := by
  fun_induction literalFields layout name shape forms with
  | case1 fieldForm valueForm rest ih => mvcgen [ih]
  | case2 => mvcgen

@[spec]
theorem framed_storeFields (struct : Value) (name : String)
    (fields : List (String × Nat × Value)) :
    ⦃framed frame⦄ storeFields struct name fields ⦃⇓ _ => framed frame⦄ := by
  induction fields with
  | nil => mvcgen [storeFields]
  | cons field fields ih => mvcgen [storeFields, ih]

@[spec]
theorem framed_emitStructLiteral (items : List Form) :
    ⦃framed frame⦄ emitStructLiteral items ⦃framedAnyhow frame⦄ := by
  mvcgen [emitStructLiteral]

@[spec]
theorem framed_memberAddress (items : List Form)
    (shape addressName : String) :
    ⦃framed frame⦄ memberAddress items shape addressName
      ⦃framedAnyhow frame⦄ := by
  mvcgen [memberAddress]

@[spec]
theorem framed_emitMember (items : List Form) :
    ⦃framed frame⦄ emitMember items ⦃framedAnyhow frame⦄ := by
  mvcgen [emitMember]

@[spec]
theorem framed_emitMemberAddress (items : List Form) :
    ⦃framed frame⦄ emitMemberAddress items ⦃framedAnyhow frame⦄ := by
  mvcgen [emitMemberAddress]

@[spec]
theorem framed_emitUnionMember (items : List Form) :
    ⦃framed frame⦄ emitUnionMember items ⦃framedAnyhow frame⦄ := by
  mvcgen [emitUnionMember]

@[spec]
theorem framed_sumVariant (items : List Form) (sumAt variantAt : Nat)
    (shape : String) :
    ⦃framed frame⦄ sumVariant items sumAt variantAt shape
      ⦃framedAnyhow frame⦄ := by
  mvcgen [sumVariant]

@[spec]
theorem framed_payloadField (variant : Variant) (index : Nat) :
    ⦃framed frame⦄ payloadField variant index ⦃framedAnyhow frame⦄ := by
  mvcgen [payloadField]

@[spec]
theorem framed_payloadPointer (payload : Value) (offset : Nat)
    (type : TypeId) (name : String) :
    ⦃framed frame⦄ payloadPointer payload offset type name
      ⦃⇓ _ => framed frame⦄ := by
  mvcgen [payloadPointer]

@[spec]
theorem framed_sumOperand (form : Form) (layout : SumLayout)
    (what : String) :
    ⦃framed frame⦄ sumOperand form layout what ⦃framedAnyhow frame⦄ := by
  mvcgen [sumOperand]

@[spec]
theorem framed_storePayload (payload : Value) (variant : Variant)
    (name : String) (index : Nat) (forms : List Form) :
    ⦃framed frame⦄ storePayload payload variant name index forms
      ⦃framedAnyhow frame⦄ := by
  induction forms generalizing index with
  | nil => mvcgen [storePayload]
  | cons form forms ih => mvcgen [storePayload, ih]

@[spec]
theorem framed_emitSumNew (items : List Form) :
    ⦃framed frame⦄ emitSumNew items ⦃framedAnyhow frame⦄ := by
  mvcgen [emitSumNew]

@[spec]
theorem framed_emitSumIs (items : List Form) :
    ⦃framed frame⦄ emitSumIs items ⦃framedAnyhow frame⦄ := by
  mvcgen [emitSumIs]

@[spec]
theorem framed_emitSumGet (items : List Form) :
    ⦃framed frame⦄ emitSumGet items ⦃framedAnyhow frame⦄ := by
  mvcgen [emitSumGet]

@[spec]
theorem framed_defineLiteral (destination : String) (literal : Literal) :
    ⦃framed frame⦄ defineLiteral destination literal ⦃framedAnyhow frame⦄ := by
  mvcgen [defineLiteral]

@[spec]
theorem framed_emitTextLiteral (items : List Form) :
    ⦃framed frame⦄ emitTextLiteral items ⦃framedAnyhow frame⦄ := by
  mvcgen [emitTextLiteral]

@[spec]
theorem framed_emitBytesLiteral (items : List Form) :
    ⦃framed frame⦄ emitBytesLiteral items ⦃framedAnyhow frame⦄ := by
  mvcgen [emitBytesLiteral]

/-! ## Calls -/

@[spec]
theorem framed_looseOperand (form : Form) :
    ⦃framed frame⦄ looseOperand form ⦃framedAnyhow frame⦄ := by
  mvcgen [looseOperand]

@[spec]
theorem framed_argumentValues (types : List TypeId) (forms : List Form) :
    ⦃framed frame⦄ argumentValues types forms ⦃framedAnyhow frame⦄ := by
  fun_induction argumentValues types forms with
  | case1 => mvcgen
  | case2 form forms ih => mvcgen [ih]
  | case3 type types form forms ih => mvcgen [ih]

@[spec]
theorem framed_callArguments (callee : String) (type : TypeId)
    (forms : List Form) :
    ⦃framed frame⦄ callArguments callee type forms ⦃framedAnyhow frame⦄ := by
  mvcgen [callArguments]

@[spec]
theorem framed_defineResult (destination : String) (value : Value)
    (type : TypeId) :
    ⦃framed frame⦄ defineResult destination value type
      ⦃framedAnyhow frame⦄ := by
  mvcgen [defineResult]

@[spec]
theorem framed_calledFunction (name : String) (result : TypeId)
    (forms : List Form) :
    ⦃framed frame⦄ calledFunction name result forms ⦃framedAnyhow frame⦄ := by
  mvcgen [calledFunction]

@[spec]
theorem framed_emitCallIndirect (items : List Form) :
    ⦃framed frame⦄ emitCallIndirect items ⦃framedAnyhow frame⦄ := by
  mvcgen [emitCallIndirect]

@[spec]
theorem framed_pointedFunction (name : String) (type : TypeId) :
    ⦃framed frame⦄ pointedFunction name type ⦃framedAnyhow frame⦄ := by
  mvcgen [pointedFunction]

@[spec]
theorem framed_emitFunctionPointer (items : List Form) :
    ⦃framed frame⦄ emitFunctionPointer items ⦃framedAnyhow frame⦄ := by
  mvcgen [emitFunctionPointer]

@[spec]
theorem framed_buildDefaultReturn (type : TypeId) :
    ⦃framed frame⦄ buildDefaultReturn type ⦃⇓ _ => framed frame⦄ := by
  mvcgen [buildDefaultReturn]

@[spec]
theorem framed_emitReturn (items : List Form) :
    ⦃framed frame⦄ emitReturn items ⦃framedAnyhow frame⦄ := by
  mvcgen [emitReturn]

@[spec]
theorem framed_callOnList (routine name : String) (list : Value) :
    ⦃framed frame⦄ callOnList routine name list ⦃⇓ _ => framed frame⦄ := by
  mvcgen [callOnList]

@[spec]
theorem framed_argumentList (form : Form) (shape : String) :
    ⦃framed frame⦄ argumentList form shape ⦃framedAnyhow frame⦄ := by
  mvcgen [argumentList]

@[spec]
theorem framed_emitVaStart (items : List Form) :
    ⦃framed frame⦄ emitVaStart items ⦃framedAnyhow frame⦄ := by
  mvcgen [emitVaStart]

@[spec]
theorem framed_emitVaArg (items : List Form) :
    ⦃framed frame⦄ emitVaArg items ⦃framedAnyhow frame⦄ := by
  mvcgen [emitVaArg]

@[spec]
theorem framed_emitVaEnd (items : List Form) :
    ⦃framed frame⦄ emitVaEnd items ⦃framedAnyhow frame⦄ := by
  mvcgen [emitVaEnd]

/-! ## Coroutines -/

@[spec]
theorem framed_coroutineOperand (form : Form) (type : TypeId) :
    ⦃framed frame⦄ coroutineOperand form type ⦃framedAnyhow frame⦄ := by
  mvcgen [coroutineOperand]

@[spec]
theorem framed_callRoutine (name : String) (result : TypeId)
    (arguments : List Value) (resultName : String) :
    ⦃framed frame⦄ callRoutine name result arguments resultName
      ⦃framedAnyhow frame⦄ := by
  mvcgen [callRoutine]

@[spec]
theorem framed_beginCoroutine (handle : String) :
    ⦃framed frame⦄ beginCoroutine handle ⦃framedAnyhow frame⦄ := by
  mvcgen [beginCoroutine]

@[spec]
theorem framed_suspensionToken (form : Form) :
    ⦃framed frame⦄ suspensionToken form ⦃framedAnyhow frame⦄ := by
  mvcgen [suspensionToken]

@[spec]
theorem framed_buildStep (step : CoroutineStep) (items : List Form)
    (destination : String) (result : TypeId) :
    ⦃framed frame⦄ buildStep step items destination result
      ⦃framedAnyhow frame⦄ := by
  cases step <;> mvcgen [buildStep]

@[spec]
theorem framed_emitCoroutineStep (step : CoroutineStep) (items : List Form) :
    ⦃framed frame⦄ emitCoroutineStep step items ⦃framedAnyhow frame⦄ := by
  mvcgen [emitCoroutineStep]

/-! ## Phis -/

@[spec]
theorem framed_placePhi (block : BlockId) (destination : String)
    (type : TypeId) (incoming : List (EdgeSource × String)) :
    ⦃framed frame⦄ placePhi block destination type incoming
      ⦃⇓ _ => framed frame⦄ := by
  mvcgen [placePhi]

@[spec]
theorem framed_readEdge (type : TypeId) (shape : String) (form : Form) :
    ⦃framed frame⦄ readEdge type shape form ⦃framedAnyhow frame⦄ := by
  mvcgen [readEdge]

@[spec]
theorem framed_emitPhi (items : List Form) :
    ⦃framed frame⦄ emitPhi items ⦃framedAnyhow frame⦄ := by
  mvcgen [emitPhi]

end FormCompiler
