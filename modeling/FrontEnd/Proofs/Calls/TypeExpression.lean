import FrontEnd.Proofs.Calls.Steps

/-!
The steps of type expressions: which of them a reader makes itself, and which are made by the
readers that it calls.
-/

namespace FrontEnd

namespace Session

/-- The value of an expression is computed without changing structures or modules. -/
theorem EvaluationStep.spares {mode : Mode} {s t : Session} {except? : Option TypeId}
    (h : s.EvaluationStep mode t) : s.Spares except? t := by
  cases h with
  | text capacity => exact .addType s _
  | emit => exact .of_types rfl rfl rfl

end Session

namespace Action

open Session

variable {α : Type} {setup : Setup} {run : List Session} {R : Session → Session → Prop}
  {s : Session} {stream : Stream} {r : Reading}

/-- A step that writes nothing. -/
theorem steps_reads {action : Action α} {Q : α → Session → Prop}
    (h : action.Writes setup (fun _ _ => False) Q s) : action.StepsIn setup run R s :=
  h.steps fun _ _ => False.elim

theorem steps_typeReference (stream : Stream) : (typeReference stream).StepsIn setup run R s := by
  refine steps_reads (Q := fun _ _ => True) ?_
  rw [← bind_pure (typeReference stream)]
  exact writes_typeReference fun _ _ => trivial

theorem steps_checkCompatible (target source : TypeId) (span : Span) :
    (checkCompatible target source span).StepsIn setup run R s := by
  refine steps_reads (Q := fun _ _ => True) ?_
  rw [← bind_pure (checkCompatible target source span)]
  exact writes_checkCompatible trivial

/-! ### Expressions -/

theorem steps_expression {mode : Mode}
    (h : Reading.Makes ⟨.expression mode, stream, s⟩ setup run R) :
    (expression mode stream).StepsIn setup run R s :=
  (writes_expression mode stream).steps fun t u step => h.own t u step.spares

theorem steps_constantExpression (h : r.Makes setup run R)
    (call : r.Calls setup ⟨.expression .constant, stream, s⟩) :
    (constantExpression stream).StepsIn setup run R s := by
  unfold constantExpression
  refine steps_bind (h.calls _ call) fun value t _ => ?_
  dsimp only
  split
  · exact steps_pure
  · exact steps_failInternal

theorem steps_length (h : r.Makes setup run R) (negative : Cause)
    (call : r.Calls setup ⟨.expression .constant, stream, s⟩) :
    (length negative stream).StepsIn setup run R s := by
  unfold length
  refine steps_bind (steps_constantExpression h call) fun rest t _ => ?_
  simp only [fail_bind]
  rw [steps_get]
  split
  · exact steps_fail
  · split
    · split
      · exact steps_pure
      · exact steps_fail
    · exact steps_fail

/-! ### Parts of type expressions -/

theorem steps_declareForward (h : r.Makes setup run R) (name : String) (exported : Bool)
    (span : Span) : (declareForward name exported span).StepsIn setup run R s := by
  unfold declareForward
  refine steps_bind (h.addType _) fun forward t _ => ?_
  refine steps_bind (h.declareType _ _ _ _) fun ident u _ => ?_
  exact steps_modify (h.own _ _ (.bind u forward ident)) steps_pure

theorem steps_namedTarget (h : r.Makes setup run R) (name : Past stream String) :
    (namedTarget stream name).StepsIn setup run R s := by
  unfold namedTarget isUndeclared
  rw [bind_assoc, steps_get]
  refine steps_bind steps_pure fun undeclared t _ => ?_
  split
  · exact steps_bind (steps_declareForward h _ _ _) fun _ _ _ => steps_pure
  · exact steps_bind (steps_typeReference stream) fun _ _ _ => steps_pure

theorem steps_addStructField {owner type : TypeId} (h : r.Makes setup run R)
    (owns : r.owner? = some owner) (field : DeclaredName) :
    (addStructField owner type field).StepsIn setup run R s := by
  unfold addStructField
  simp only [fail_bind]
  split
  · exact steps_fail
  rw [steps_get]
  split
  · exact steps_fail
  split
  · rename_i added
    exact steps_write (h.own _ _ (owns ▸ .addField s added)) steps_pure
  · exact steps_fail

theorem steps_addStructFields {owner type : TypeId} (h : r.Makes setup run R)
    (owns : r.owner? = some owner) (fields : List DeclaredName) :
    (fields.forM (addStructField owner type)).StepsIn setup run R s := by
  induction fields generalizing s with
  | nil => exact steps_pure
  | cons field fields ih =>
    exact steps_bind (steps_addStructField h owns field) fun _ _ _ => ih

/-- The new interface gains the pointer to the object itself. -/
theorem steps_addInterface (h : Reading.Makes ⟨.interfaceType, stream, s⟩ setup run R) :
    addInterface.StepsIn setup run R s := by
  unfold addInterface
  refine steps_bind (h.addType _) fun owner t added => ?_
  obtain rfl : owner = ⟨s.types.size⟩ := by
    cases added
    rfl
  refine steps_modify (h.own _ _ ?_) steps_pure
  unfold withSelf
  split
  · rename_i gained
    exact .addField t gained
  · exact .of_types rfl rfl rfl

theorem steps_addMethod {owner : TypeId} (h : r.Makes setup run R) (owns : r.owner? = some owner)
    (name : String) (signature : Signature) (span : Span) :
    (addMethod owner name signature span).StepsIn setup run R s := by
  unfold addMethod
  rw [steps_get]
  split
  · exact steps_fail
  refine steps_bind (h.addType _) fun type t _ => ?_
  rw [steps_get]
  split
  · rename_i added
    exact steps_write (h.own _ _ (owns ▸ .addField t added)) steps_pure
  · exact steps_fail

theorem steps_addParameters (type : TypeId) (default? : Option Constant) (start : Signature)
    (parameters : List DeclaredName) :
    (parameters.foldlM (addParameter type default?) start).StepsIn setup run R s := by
  induction parameters generalizing s start with
  | nil => exact steps_pure
  | cons parameter parameters ih =>
    refine steps_bind ?_ fun extended t _ => ih extended
    unfold addParameter
    simp only [fail_bind]
    split
    · exact steps_fail
    · rw [steps_get]
      split
      · exact steps_pure
      · exact steps_fail

theorem steps_defaultValue (h : r.Makes setup run R) (names : Nat) (type : TypeId) (defaults : Nat)
    (call : ∀ sign, stream.skip? .assign = some sign →
      r.Calls setup ⟨.expression .constant, sign.stream, s⟩) :
    (defaultValue names type defaults stream).StepsIn setup run R s := by
  unfold defaultValue
  simp only [fail_bind]
  split
  · rename_i s₁ h₁ sign
    split
    · exact steps_fail
    refine steps_bind (steps_constantExpression h (call _ sign)) fun rest t _ => ?_
    rw [steps_get]
    split
    · exact steps_fail
    · exact steps_bind (steps_checkCompatible _ _ _) fun _ _ _ => steps_pure
  · split
    · exact steps_fail
    · exact steps_pure

theorem steps_addResult (h : r.Makes setup run R) (signature : Signature) (type : TypeId)
    (span : Span) : (addResult signature type span).StepsIn setup run R s := by
  unfold addResult
  rw [steps_get]
  split
  · exact steps_pure
  refine steps_bind (h.addType _) fun pointer t _ => ?_
  rw [steps_get]
  split
  · exact steps_pure
  · exact steps_fail

/-! ### Type expressions -/

theorem steps_typeExpression (h : Reading.Makes ⟨.typeExpression, stream, s⟩ setup run R) :
    (typeExpression stream).StepsIn setup run R s := by
  rw [typeExpression]
  split
  · unfold namedType
    refine steps_bind (steps_typeReference stream) fun past t _ => ?_
    dsimp only
    rw [steps_get]
    split
    · exact steps_fail
    · exact steps_pure
  · exact h.calls _ (.type (.pointerType ‹_›))
  · exact h.calls _ (.type (.arrayType ‹_›))
  · exact h.calls _ (.type (.textType ‹_›))
  · exact h.calls _ (.type (.structType ‹_›))
  · exact h.calls _ (.type (.interfaceType ‹_›))
  · exact h.calls _ (.type (.functionType ‹_›))
  · exact steps_fail

theorem steps_pointerType (h : Reading.Makes ⟨.pointerType, stream, s⟩ setup run R) :
    (pointerType stream).StepsIn setup run R s := by
  rw [pointerType]
  refine steps_eat fun first caret => ?_
  refine steps_bind ?_ fun past t _ => ?_
  · rw [pointerTarget]
    split
    · exact steps_namedTarget h _
    · exact h.calls _ (.type (.pointerTarget caret ‹_›))
  · exact steps_bind (h.addType _) fun _ _ _ => steps_pure

theorem steps_arrayType (h : Reading.Makes ⟨.arrayType, stream, s⟩ setup run R) :
    (arrayType stream).StepsIn setup run R s := by
  rw [arrayType]
  refine steps_eat fun first opened => ?_
  refine steps_bind ?_ fun rest t measured => ?_
  · unfold arrayLength
    split
    · exact steps_pure
    · rename_i given
      exact steps_length h _ (.type (.arrayLength opened (Bool.eq_false_iff.2 given)))
  refine steps_eat fun last closed => ?_
  refine steps_bind (h.calls _ (.type (.arrayElement opened measured closed))) fun base u _ => ?_
  refine steps_bind (h.addType _) fun type v _ => ?_
  simp only [fail_bind]
  rw [steps_get]
  split
  · exact steps_fail
  · exact steps_pure

theorem steps_textType (h : Reading.Makes ⟨.textType, stream, s⟩ setup run R) :
    (textType stream).StepsIn setup run R s := by
  unfold textType
  refine steps_eat fun first word => ?_
  dsimp only
  split
  · rename_i bracket opened
    refine steps_bind (steps_length h _ (.type (.textLength word opened))) fun rest t _ => ?_
    refine steps_eat fun last _ => ?_
    exact steps_bind (h.addType _) fun _ _ _ => steps_pure
  · rw [steps_read]
    split
    · exact steps_bind (h.addType _) fun _ _ _ => steps_pure
    · exact steps_fail

theorem steps_structType (h : Reading.Makes ⟨.structType, stream, s⟩ setup run R) :
    (structType stream).StepsIn setup run R s := by
  rw [structType]
  refine steps_eat fun first word => ?_
  refine steps_eat fun second opened => ?_
  refine steps_bind (h.addType _) fun owner t added => ?_
  refine steps_bind (h.calls _ (.type (.structFields word opened added))) fun rest u _ => ?_
  exact steps_eat fun _ _ => steps_pure

theorem steps_structFields {owner : TypeId}
    (h : Reading.Makes ⟨.structFields owner, stream, s⟩ setup run R) :
    (structFields owner stream).StepsIn setup run R s := by
  rw [structFields]
  split
  · exact steps_pure
  rename_i named
  have named := Bool.eq_false_iff.2 named
  refine steps_bind (h.calls _ (.type (.fieldNames named))) fun past t read => ?_
  refine steps_bind (steps_addStructFields h rfl _) fun _ u added => ?_
  refine steps_bind (steps_separator _ _) fun rest v between => ?_
  refine steps_bind (h.calls _ (.type (.nextFields named read added between))) fun _ _ _ => ?_
  exact steps_pure

theorem steps_interfaceType (h : Reading.Makes ⟨.interfaceType, stream, s⟩ setup run R) :
    (interfaceType stream).StepsIn setup run R s := by
  rw [interfaceType]
  refine steps_eat fun first word => ?_
  refine steps_eat fun second opened => ?_
  refine steps_bind (steps_addInterface h) fun owner t added => ?_
  refine steps_bind (h.calls _ (.type (.interfaceMethods word opened added))) fun rest u _ => ?_
  exact steps_eat fun _ _ => steps_pure

theorem steps_interfaceMethods {owner : TypeId}
    (h : Reading.Makes ⟨.interfaceMethods owner, stream, s⟩ setup run R) :
    (interfaceMethods owner stream).StepsIn setup run R s := by
  rw [interfaceMethods]
  split
  · exact steps_pure
  rename_i name s₁ h₁ named
  rw [steps_get]
  simp only [fail_bind]
  split
  · exact steps_fail
  rw [methodSignature, bind_assoc, steps_get, pure_bind]
  refine steps_bind (h.calls _ (.type (.methodSignature named rfl))) fun past t read => ?_
  refine steps_bind (steps_addMethod h rfl _ _ _) fun _ u added => ?_
  refine steps_bind (steps_separator _ _) fun rest v between => ?_
  refine steps_bind (h.calls _ (.type (.nextMethods named rfl read added between))) fun _ _ _ => ?_
  exact steps_pure

theorem steps_functionType (h : Reading.Makes ⟨.functionType, stream, s⟩ setup run R) :
    (functionType stream).StepsIn setup run R s := by
  rw [functionType]
  refine steps_eat fun first word => ?_
  refine steps_bind (h.calls _ (.type (.typeSignature word))) fun past t _ => ?_
  exact steps_bind (h.addType _) fun _ _ _ => steps_pure

theorem steps_typedNames {capacity : Nat}
    (h : Reading.Makes ⟨.typedNames capacity, stream, s⟩ setup run R) :
    (typedNames capacity stream).StepsIn setup run R s := by
  rw [typedNames]
  refine steps_ofExcept fun names listed => ?_
  refine steps_eat fun colon typed => ?_
  exact steps_bind (h.calls _ (.type (.commonType listed typed))) fun _ _ _ => steps_pure

theorem steps_signature {start : Signature}
    (h : Reading.Makes ⟨.signature start, stream, s⟩ setup run R) :
    (signature start stream).StepsIn setup run R s := by
  rw [signature]
  refine steps_eat fun first opened => ?_
  refine steps_bind ?_ fun rest t listed => ?_
  · rw [optionalParameters]
    split
    · rename_i named
      exact steps_bind (h.calls _ (.type (.parameters opened named))) fun _ _ _ => steps_pure
    · exact steps_pure
  refine steps_eat fun last closed => ?_
  dsimp only
  split
  · rename_i colon typed
    have call := Reading.CallsInType.resultType opened listed closed typed
    refine steps_bind (h.calls _ (.type call)) fun past u _ => ?_
    exact steps_bind (steps_addResult h _ _ _) fun _ _ _ => steps_pure
  · exact steps_bind (steps_addResult h _ _ _) fun _ _ _ => steps_pure

theorem steps_parameterGroups {start : Signature} {defaults : Nat}
    (h : Reading.Makes ⟨.parameterGroups start defaults, stream, s⟩ setup run R) :
    (parameterGroups start defaults stream).StepsIn setup run R s := by
  rw [parameterGroups]
  refine steps_bind (h.calls _ (.type .parameterNames)) fun past t read => ?_
  have call (sign : Shorter past.stream) (assigned : past.stream.skip? .assign = some sign) :
      Reading.Calls setup ⟨.parameterGroups start defaults, stream, s⟩
        ⟨.expression .constant, sign.stream, t⟩ :=
    .type (.defaultValue read assigned)
  refine steps_bind (steps_defaultValue h _ _ _ call) fun rest u valued => ?_
  refine steps_bind (steps_addParameters _ _ _ _) fun extended v added => ?_
  dsimp only
  split
  · rename_i comma found
    refine steps_bind (h.calls _ (.type (.nextParameters read valued added found))) fun _ _ _ => ?_
    exact steps_pure
  · exact steps_pure

end Action

end FrontEnd
