import FrontEnd.Import
import FrontEnd.Proofs.Expression.Syntax

/-!
Steps that read no file. Files are read for imports only, so nothing that is read between the words
of one file, up to its last declaration, fails because a file cannot be read.
-/

namespace FrontEnd

/-- Only files that cannot be read have faults of their category. -/
theorem Cause.category_eq_file {cause : Cause} :
    cause.category = .file ↔ ∃ message, cause = .unreadable message := by
  constructor
  · intro h
    cases cause with
    | unreadable message => exact ⟨message, rfl⟩
    | _ => cases h
  · rintro ⟨message, rfl⟩
    rfl

namespace Action

variable {α β : Type} {s : Stream} {span : Span}

/-- Whatever makes the step fail, it is no file that cannot be read. -/
def ReadsNoFile (action : Action α) : Prop :=
  ∀ setup s d t, action.run setup s = .error d t → d.category ≠ .file

/-! ### Composite steps -/

@[grind ←]
theorem readsNoFile_bind {action : Action α} {f : α → Action β} (h : action.ReadsNoFile)
    (hf : ∀ v, (f v).ReadsNoFile) : (action >>= f).ReadsNoFile := by
  intro setup s d t hr
  rw [run_bind] at hr
  cases ha : action.run setup s with
  | ok v u =>
    rw [ha] at hr
    exact hf v setup u d t hr
  | error e u =>
    rw [ha] at hr
    cases hr
    exact h setup s d t ha

/-- A step that succeeds wherever it runs. -/
theorem readsNoFile_of_ok {action : Action α}
    (h : ∀ setup s, ∃ v t, action.run setup s = .ok v t) : action.ReadsNoFile := by
  intro setup s d t hr
  obtain ⟨v, u, ok⟩ := h setup s
  cases ok.symm.trans hr

@[grind ←]
theorem readsNoFile_pure (v : α) : (pure v : Action α).ReadsNoFile :=
  readsNoFile_of_ok fun _ _ => ⟨_, _, rfl⟩

@[grind ←]
theorem readsNoFile_get : (get : Action Session).ReadsNoFile :=
  readsNoFile_of_ok fun _ _ => ⟨_, _, rfl⟩

@[grind ←]
theorem readsNoFile_set (session : Session) : (set session : Action PUnit).ReadsNoFile :=
  readsNoFile_of_ok fun _ _ => ⟨_, _, rfl⟩

@[grind ←]
theorem readsNoFile_read : (read : Action Setup).ReadsNoFile :=
  readsNoFile_of_ok fun _ _ => ⟨_, _, rfl⟩

@[grind ←]
theorem readsNoFile_modify (f : Session → Session) : (modify f : Action PUnit).ReadsNoFile :=
  readsNoFile_of_ok fun _ _ => ⟨_, _, rfl⟩

@[grind ←]
theorem readsNoFile_modifyGet (f : Session → α × Session) :
    (modifyGet f : Action α).ReadsNoFile :=
  readsNoFile_of_ok fun _ _ => ⟨_, _, rfl⟩

@[grind ←]
theorem readsNoFile_throw {d : Diagnostic} (h : ∀ message, d.cause ≠ .unreadable message) :
    (throw d : Action α).ReadsNoFile := by
  rintro setup s _ t ⟨⟩ file
  obtain ⟨message, he⟩ := Cause.category_eq_file.1 file
  exact h message he

@[grind ←]
theorem readsNoFile_failAt {fault : Fault} (h : ∀ message, fault.cause ≠ .unreadable message) :
    (failAt fault : Action α).ReadsNoFile :=
  readsNoFile_bind readsNoFile_get fun _ => readsNoFile_throw h

@[grind ←]
theorem readsNoFile_fail {cause : Cause} (h : ∀ message, cause ≠ .unreadable message) :
    (fail cause span : Action α).ReadsNoFile :=
  readsNoFile_failAt h

@[grind ←]
theorem readsNoFile_failInternal {cause : InternalCause} :
    (failInternal cause : Action α).ReadsNoFile :=
  readsNoFile_throw nofun

attribute [grind =] fail_bind

@[grind ←]
theorem readsNoFile_ofExcept {result : Except Fault α}
    (h : ∀ fault, result = .error fault → ∀ message, fault.cause ≠ .unreadable message) :
    (ofExcept result).ReadsNoFile := by
  cases result with
  | ok v => exact readsNoFile_pure v
  | error fault => exact readsNoFile_failAt (h fault rfl)

theorem readsNoFile_forM {xs : List β} {f : β → Action PUnit} (h : ∀ x, (f x).ReadsNoFile) :
    (xs.forM f).ReadsNoFile := by
  induction xs with
  | nil => exact readsNoFile_pure ()
  | cons x xs ih => exact readsNoFile_bind (h x) fun _ => ih

theorem readsNoFile_foldlM {xs : List β} {f : α → β → Action α}
    (h : ∀ v x, (f v x).ReadsNoFile) (v : α) : (xs.foldlM f v).ReadsNoFile := by
  induction xs generalizing v with
  | nil => exact readsNoFile_pure v
  | cons x xs ih => exact readsNoFile_bind (h v x) fun _ => ih _

/-! ### Words -/

theorem ne_unreadable_of_grammar {cause : Cause} (h : cause.category = .grammar)
    (message : String) : cause ≠ .unreadable message := by
  rintro rfl
  cases h

@[grind ←]
theorem readsNoFile_eat {wanted : Symbol} : (eat wanted s).ReadsNoFile := by
  unfold eat
  grind

@[grind ←]
theorem readsNoFile_eatName : (eatName s).ReadsNoFile := by
  unfold eatName
  grind

@[grind ←]
theorem readsNoFile_separator {closing : Symbol} : (separator closing s).ReadsNoFile := by
  unfold separator
  grind

@[grind ←]
theorem readsNoFile_atEnd : (atEnd s).ReadsNoFile := by
  unfold atEnd Stream.check
  grind

theorem ne_unreadable_of_read {fault : Fault} (h : DeclaredName.read s = .error fault)
    (message : String) : fault.cause ≠ .unreadable message := by
  unfold DeclaredName.read at h
  grind

theorem ne_unreadable_of_checkIdent {fault : Fault} (h : s.checkIdent = .error fault)
    (message : String) : fault.cause ≠ .unreadable message := by
  unfold Stream.checkIdent at h
  grind

theorem ne_unreadable_of_readList {capacity : Nat} {fault : Fault}
    (h : DeclaredName.readList capacity s = .error fault) (message : String) :
    fault.cause ≠ .unreadable message := by
  induction capacity generalizing s with
  | zero =>
    unfold DeclaredName.readList at h
    grind [ne_unreadable_of_checkIdent]
  | succ room ih =>
    unfold DeclaredName.readList at h
    split at h
    · grind [ne_unreadable_of_checkIdent]
    · cases hr : DeclaredName.read s with
      | error e =>
        rw [hr] at h
        cases h
        exact ne_unreadable_of_read hr message
      | ok past =>
        rw [hr] at h
        obtain ⟨declared, s₁, h₁⟩ := past
        simp only [bind, Except.bind] at h
        split at h
        · cases h
        · split at h
          · cases h
            exact ih ‹_›
          · cases h

@[grind ←]
theorem readsNoFile_readName : (ofExcept (DeclaredName.read s)).ReadsNoFile :=
  readsNoFile_ofExcept fun _ => ne_unreadable_of_read

@[grind ←]
theorem readsNoFile_readList {capacity : Nat} :
    (ofExcept (DeclaredName.readList capacity s)).ReadsNoFile :=
  readsNoFile_ofExcept fun _ => ne_unreadable_of_readList

/-! ### Types, code and identifiers -/

@[grind ←]
theorem readsNoFile_addType {kind : TypeKind} : (addType kind).ReadsNoFile :=
  readsNoFile_modifyGet _

@[grind ←]
theorem readsNoFile_typeName {type : TypeId} : (typeName type).ReadsNoFile := by
  unfold typeName
  grind

@[grind ←]
theorem readsNoFile_emit {i : Instruction} : (emit i).ReadsNoFile :=
  readsNoFile_modifyGet _

@[grind ←]
theorem readsNoFile_newIdent {name : String} {kind : IdentKind} {type : TypeId} :
    (newIdent name kind type span).ReadsNoFile := by
  unfold newIdent
  grind

@[grind ←]
theorem readsNoFile_declare {ident : Ident} : (declare ident).ReadsNoFile := by
  unfold declare
  grind

@[grind ←]
theorem readsNoFile_declareType {name : String} {exported : Bool} {type : TypeId} :
    (declareType name exported type span).ReadsNoFile := by
  unfold declareType
  grind

@[grind ←]
theorem readsNoFile_allocate {name : String} {type : TypeId} :
    (allocate name type span).ReadsNoFile := by
  unfold allocate
  grind

@[grind ←]
theorem readsNoFile_declareVariable {name : String} {exported : Bool} {type : TypeId} :
    (declareVariable name exported type span).ReadsNoFile := by
  unfold declareVariable
  grind

@[grind ←]
theorem readsNoFile_setGlobal {slot : Nat} {value : Constant} :
    (setGlobal slot value).ReadsNoFile := by
  unfold setGlobal
  grind

@[grind ←]
theorem readsNoFile_enter {function? : Option IdentId} : (enter function?).ReadsNoFile :=
  readsNoFile_modify _

@[grind ←]
theorem readsNoFile_leave : leave.ReadsNoFile :=
  readsNoFile_modify _

/-! ### Expressions -/

@[grind ←]
theorem readsNoFile_found {id? : Option IdentId} {cause : Cause}
    (h : ∀ message, cause ≠ .unreadable message) : (found id? cause span).ReadsNoFile := by
  unfold found
  grind

theorem readsNoFile_resolve {r : Reference} (h : r.IsProper) : (resolve r).ReadsNoFile := by
  unfold resolve
  cases r with
  | plain name span => grind
  | member file span name =>
    have member : (ofExcept name).ReadsNoFile :=
      readsNoFile_ofExcept fun fault hf => ne_unreadable_of_grammar (h fault hf)
    refine readsNoFile_bind readsNoFile_get fun s => ?_
    dsimp only
    split
    · grind
    · rw [fail_bind]
      split
      · grind
      · refine readsNoFile_bind member fun named =>
          readsNoFile_bind (readsNoFile_found nofun) fun found => ?_
        rw [fail_bind]
        split <;> grind

@[grind ←]
theorem readsNoFile_reference : (reference s).ReadsNoFile := by
  unfold reference
  refine readsNoFile_bind readsNoFile_get fun session => ?_
  split
  · rename_i r s' h hr
    exact readsNoFile_bind (readsNoFile_resolve (Reference.isProper_of_read hr)) fun _ =>
      readsNoFile_pure _
  · grind

@[grind ←]
theorem readsNoFile_pushConstant {mode : Mode} {value : Constant} {type : TypeId} :
    (pushConstant mode value type).ReadsNoFile := by
  unfold pushConstant
  grind

@[grind ←]
theorem readsNoFile_pushVariable {address : Instruction} {type : TypeId} :
    (pushVariable address type).ReadsNoFile := by
  unfold pushVariable
  grind

@[grind ←]
theorem readsNoFile_literalType {value : Constant} : (literalType value).ReadsNoFile := by
  unfold literalType
  grind

@[grind ←]
theorem readsNoFile_identValue {mode : Mode} {ident : Ident} :
    (identValue mode ident span).ReadsNoFile := by
  unfold identValue
  grind

@[grind ←]
theorem readsNoFile_checkCompatible {target source : TypeId} :
    (checkCompatible target source span).ReadsNoFile := by
  unfold checkCompatible
  grind

@[grind ←]
theorem readsNoFile_widen {mode : Mode} {target : TypeId} {value : TypedValue} :
    (widen mode target value).ReadsNoFile := by
  unfold widen
  grind

@[grind ←]
theorem readsNoFile_widenOnStack {target source : TypeId} :
    (widenOnStack target source).ReadsNoFile := by
  unfold widenOnStack
  grind

@[grind ←]
theorem readsNoFile_checkUnary {op : UnaryOperator} {operand : TypeId} :
    (checkUnary op operand span).ReadsNoFile := by
  unfold checkUnary
  grind

@[grind ←]
theorem readsNoFile_foldUnary {op : UnaryOperator} {operand : TypedValue} :
    (foldUnary op operand span).ReadsNoFile := by
  unfold foldUnary
  grind

@[grind ←]
theorem readsNoFile_applyUnary {mode : Mode} {op : UnaryOperator} {operand : TypedValue} :
    (applyUnary mode op operand span).ReadsNoFile := by
  unfold applyUnary
  grind

@[grind ←]
theorem readsNoFile_checkBinary {op : Operator} {left : TypeId} {right : TypedValue} :
    (checkBinary op left right span).ReadsNoFile := by
  unfold checkBinary
  grind

@[grind ←]
theorem readsNoFile_foldBinary {op : Operator} {left right : TypedValue} :
    (foldBinary op left right span).ReadsNoFile := by
  unfold foldBinary
  grind

@[grind ←]
theorem readsNoFile_applyBinary {mode : Mode} {op : Operator} {left right : TypedValue} :
    (applyBinary mode op left right span).ReadsNoFile := by
  unfold applyBinary
  grind

theorem readsNoFile_evaluate {mode : Mode} {tree : Expression} (h : tree.IsProper) :
    (tree.evaluate mode).ReadsNoFile := by
  induction tree with
  | literal value =>
    unfold Expression.evaluate
    grind
  | name reference =>
    unfold Expression.evaluate
    exact readsNoFile_bind (readsNoFile_resolve h) fun _ => readsNoFile_identValue
  | group inner unclosed? ih =>
    unfold Expression.evaluate
    refine readsNoFile_bind (ih h.1) fun _ => ?_
    split
    · exact readsNoFile_failAt (ne_unreadable_of_grammar (h.2 _ rfl))
    · exact readsNoFile_pure _
  | unary op span operand ih =>
    unfold Expression.evaluate
    exact readsNoFile_bind (ih h) fun _ => readsNoFile_applyUnary
  | binary op span left right ihl ihr =>
    unfold Expression.evaluate
    exact readsNoFile_bind (ihl h.1) fun _ =>
      readsNoFile_bind (ihr h.2) fun _ => readsNoFile_applyBinary
  | missing fault =>
    unfold Expression.evaluate
    exact readsNoFile_failAt (ne_unreadable_of_grammar h)

@[grind ←]
theorem readsNoFile_expression {mode : Mode} : (expression mode s).ReadsNoFile := by
  unfold expression
  refine readsNoFile_bind readsNoFile_get fun session => ?_
  exact readsNoFile_bind (readsNoFile_evaluate (Expression.isProper_read _ s)) fun _ =>
    readsNoFile_pure _

@[grind ←]
theorem readsNoFile_constantExpression : (constantExpression s).ReadsNoFile := by
  unfold constantExpression
  grind

/-! ### Types -/

@[grind ←]
theorem readsNoFile_typeReference : (typeReference s).ReadsNoFile := by
  unfold typeReference
  grind

@[grind ←]
theorem readsNoFile_namedType : (namedType s).ReadsNoFile := by
  unfold namedType
  grind

@[grind ←]
theorem readsNoFile_length {negative : Cause} (h : ∀ message, negative ≠ .unreadable message) :
    (length negative s).ReadsNoFile := by
  unfold length
  grind

@[grind ←]
theorem readsNoFile_textType : (textType s).ReadsNoFile := by
  unfold textType
  refine readsNoFile_bind readsNoFile_eat fun ⟨(), s₁, h₁⟩ => ?_
  dsimp only
  split
  · exact readsNoFile_bind (readsNoFile_length (by simp)) fun _ => readsNoFile_bind readsNoFile_eat
      fun _ => readsNoFile_bind readsNoFile_addType fun _ => readsNoFile_pure _
  · grind

@[grind ←]
theorem readsNoFile_arrayLength : (arrayLength s).ReadsNoFile := by
  unfold arrayLength
  grind

@[grind ←]
theorem readsNoFile_isUndeclared {name : Past s String} : (isUndeclared name).ReadsNoFile := by
  unfold isUndeclared
  grind

@[grind ←]
theorem readsNoFile_declareForward {name : String} {exported : Bool} :
    (declareForward name exported span).ReadsNoFile := by
  unfold declareForward
  grind

@[grind ←]
theorem readsNoFile_namedTarget {name : Past s String} : (namedTarget s name).ReadsNoFile := by
  unfold namedTarget
  grind

@[grind ←]
theorem readsNoFile_addStructField {owner type : TypeId} {field : DeclaredName} :
    (addStructField owner type field).ReadsNoFile := by
  unfold addStructField
  grind

@[grind ←]
theorem readsNoFile_addInterface : addInterface.ReadsNoFile := by
  unfold addInterface
  grind

@[grind ←]
theorem readsNoFile_methodSignature : methodSignature.ReadsNoFile := by
  unfold methodSignature
  grind

@[grind ←]
theorem readsNoFile_addMethod {owner : TypeId} {name : String} {signature : Signature} :
    (addMethod owner name signature span).ReadsNoFile := by
  unfold addMethod
  grind

@[grind ←]
theorem readsNoFile_addParameter {type : TypeId} {default? : Option Constant}
    {signature : Signature} {parameter : DeclaredName} :
    (addParameter type default? signature parameter).ReadsNoFile := by
  unfold addParameter
  grind

@[grind ←]
theorem readsNoFile_defaultValue {names : Nat} {type : TypeId} {defaults : Nat} :
    (defaultValue names type defaults s).ReadsNoFile := by
  unfold defaultValue
  grind

@[grind ←]
theorem readsNoFile_addResult {signature : Signature} {type : TypeId} :
    (addResult signature type span).ReadsNoFile := by
  unfold addResult
  grind

mutual

theorem readsNoFile_typeExpression (s : Stream) : (typeExpression s).ReadsNoFile := by
  rw [typeExpression]
  split
  · exact readsNoFile_namedType
  · exact readsNoFile_pointerType s
  · exact readsNoFile_arrayType s
  · exact readsNoFile_textType
  · exact readsNoFile_structType s
  · exact readsNoFile_interfaceType s
  · exact readsNoFile_functionType s
  · exact readsNoFile_fail nofun
termination_by 5 * s.size + 1

theorem readsNoFile_pointerType (s : Stream) : (pointerType s).ReadsNoFile := by
  rw [pointerType]
  refine readsNoFile_bind readsNoFile_eat fun ⟨(), s₁, h₁⟩ => ?_
  have hlt := h₁.2
  exact readsNoFile_bind (readsNoFile_pointerTarget s₁) fun _ =>
    readsNoFile_bind readsNoFile_addType fun _ => readsNoFile_pure _
termination_by 5 * s.size

theorem readsNoFile_pointerTarget (s : Stream) : (pointerTarget s).ReadsNoFile := by
  rw [pointerTarget]
  split
  · exact readsNoFile_namedTarget
  · exact readsNoFile_typeExpression s
termination_by 5 * s.size + 2

theorem readsNoFile_arrayType (s : Stream) : (arrayType s).ReadsNoFile := by
  rw [arrayType]
  refine readsNoFile_bind readsNoFile_eat fun ⟨(), s₁, h₁⟩ => ?_
  refine readsNoFile_bind readsNoFile_arrayLength fun ⟨_, s₂, h₂⟩ => ?_
  refine readsNoFile_bind readsNoFile_eat fun ⟨(), s₃, h₃⟩ => ?_
  have hlt := ((h₃.of_within h₂).trans h₁).2
  refine readsNoFile_bind (readsNoFile_typeExpression s₃) fun base =>
    readsNoFile_bind readsNoFile_addType fun type => readsNoFile_bind readsNoFile_get fun t => ?_
  dsimp only
  grind
termination_by 5 * s.size

theorem readsNoFile_structType (s : Stream) : (structType s).ReadsNoFile := by
  rw [structType]
  refine readsNoFile_bind readsNoFile_eat fun ⟨(), s₁, h₁⟩ => ?_
  refine readsNoFile_bind readsNoFile_eat fun ⟨(), s₂, h₂⟩ => ?_
  have hlt := (h₂.trans h₁).2
  exact readsNoFile_bind readsNoFile_addType fun owner =>
    readsNoFile_bind (readsNoFile_structFields owner s₂) fun _ =>
      readsNoFile_bind readsNoFile_eat fun _ => readsNoFile_pure _
termination_by 5 * s.size

theorem readsNoFile_structFields (owner : TypeId) (s : Stream) :
    (structFields owner s).ReadsNoFile := by
  rw [structFields]
  split
  · exact readsNoFile_pure _
  refine readsNoFile_bind (readsNoFile_typedNames maxFields s) fun ⟨(names, type), s₁, h₁⟩ => ?_
  refine readsNoFile_bind (readsNoFile_forM fun _ => readsNoFile_addStructField) fun _ => ?_
  refine readsNoFile_bind readsNoFile_separator fun ⟨(), s₂, h₂⟩ => ?_
  have hlt := (h₂.behind h₁).2
  exact readsNoFile_bind (readsNoFile_structFields owner s₂) fun _ => readsNoFile_pure _
termination_by 5 * s.size + 3

theorem readsNoFile_interfaceType (s : Stream) : (interfaceType s).ReadsNoFile := by
  rw [interfaceType]
  refine readsNoFile_bind readsNoFile_eat fun ⟨(), s₁, h₁⟩ => ?_
  refine readsNoFile_bind readsNoFile_eat fun ⟨(), s₂, h₂⟩ => ?_
  have hlt := (h₂.trans h₁).2
  exact readsNoFile_bind readsNoFile_addInterface fun owner =>
    readsNoFile_bind (readsNoFile_interfaceMethods owner s₂) fun _ =>
      readsNoFile_bind readsNoFile_eat fun _ => readsNoFile_pure _
termination_by 5 * s.size

theorem readsNoFile_interfaceMethods (owner : TypeId) (s : Stream) :
    (interfaceMethods owner s).ReadsNoFile := by
  rw [interfaceMethods]
  split
  · exact readsNoFile_pure _
  rename_i name s₁ h₁ _
  refine readsNoFile_bind readsNoFile_get fun session => ?_
  dsimp only
  rw [fail_bind]
  split
  · exact readsNoFile_fail nofun
  refine readsNoFile_bind readsNoFile_methodSignature fun start => ?_
  have hlt₁ := h₁.2
  refine readsNoFile_bind (readsNoFile_signature start s₁) fun ⟨complete, s₂, h₂⟩ => ?_
  refine readsNoFile_bind readsNoFile_addMethod fun _ => ?_
  refine readsNoFile_bind readsNoFile_separator fun ⟨(), s₃, h₃⟩ => ?_
  have hlt := ((h₃.behind h₂).trans h₁).2
  exact readsNoFile_bind (readsNoFile_interfaceMethods owner s₃) fun _ => readsNoFile_pure _
termination_by 5 * s.size

theorem readsNoFile_functionType (s : Stream) : (functionType s).ReadsNoFile := by
  rw [functionType]
  refine readsNoFile_bind readsNoFile_eat fun ⟨(), s₁, h₁⟩ => ?_
  have hlt := h₁.2
  exact readsNoFile_bind (readsNoFile_signature .empty s₁) fun _ =>
    readsNoFile_bind readsNoFile_addType fun _ => readsNoFile_pure _
termination_by 5 * s.size

theorem readsNoFile_typedNames (capacity : Nat) (s : Stream) :
    (typedNames capacity s).ReadsNoFile := by
  rw [typedNames]
  refine readsNoFile_bind readsNoFile_readList fun ⟨names, s₁, h₁⟩ => ?_
  refine readsNoFile_bind readsNoFile_eat fun ⟨(), s₂, h₂⟩ => ?_
  have hlt := (h₂.trans h₁).2
  exact readsNoFile_bind (readsNoFile_typeExpression s₂) fun _ => readsNoFile_pure _
termination_by 5 * s.size + 2

theorem readsNoFile_signature (start : Signature) (s : Stream) :
    (signature start s).ReadsNoFile := by
  rw [signature]
  refine readsNoFile_bind readsNoFile_eat fun ⟨(), s₁, h₁⟩ => ?_
  have hlt₁ := h₁.2
  refine readsNoFile_bind (readsNoFile_optionalParameters start s₁) fun ⟨(listed, n), s₂, h₂⟩ => ?_
  refine readsNoFile_bind readsNoFile_eat fun ⟨(), s₃, h₃⟩ => ?_
  have h₃ := (h₃.of_within h₂).trans h₁
  dsimp only
  split
  · rename_i colon _
    have hlt := (colon.lt.trans h₃).2
    exact readsNoFile_bind (readsNoFile_typeExpression colon.stream) fun _ =>
      readsNoFile_bind readsNoFile_addResult fun _ => readsNoFile_pure _
  · exact readsNoFile_bind readsNoFile_addResult fun _ => readsNoFile_pure _
termination_by 5 * s.size

theorem readsNoFile_optionalParameters (start : Signature) (s : Stream) :
    (optionalParameters start s).ReadsNoFile := by
  rw [optionalParameters]
  have groups := readsNoFile_parameterGroups start 0 s
  grind
termination_by 5 * s.size + 4

theorem readsNoFile_parameterGroups (start : Signature) (defaults : Nat) (s : Stream) :
    (parameterGroups start defaults s).ReadsNoFile := by
  rw [parameterGroups]
  refine readsNoFile_bind (readsNoFile_typedNames maxParameters s) fun ⟨(names, type), s₁, h₁⟩ => ?_
  refine readsNoFile_bind readsNoFile_defaultValue fun ⟨default?, s₂, h₂⟩ => ?_
  refine readsNoFile_bind (readsNoFile_foldlM (fun _ _ => readsNoFile_addParameter) _) fun _ => ?_
  dsimp only
  split
  · rename_i comma _
    have hlt := (comma.lt.trans (h₂.behind h₁)).2
    exact readsNoFile_bind (readsNoFile_parameterGroups _ _ comma.stream) fun _ =>
      readsNoFile_pure _
  · exact readsNoFile_pure _
termination_by 5 * s.size + 3

end

@[grind ←]
theorem readsNoFile_receiver : (receiver s).ReadsNoFile := by
  unfold receiver
  refine readsNoFile_bind readsNoFile_eat fun _ => readsNoFile_bind readsNoFile_eatName fun _ =>
    readsNoFile_bind readsNoFile_eat fun _ =>
      readsNoFile_bind (readsNoFile_typeExpression _) fun _ =>
        readsNoFile_bind readsNoFile_get fun _ => ?_
  dsimp only
  split
  · exact readsNoFile_fail nofun
  · exact readsNoFile_bind readsNoFile_eat fun _ => readsNoFile_pure _

/-! ### Values -/

@[grind ←]
theorem readsNoFile_fold {target : TypeId} {slot : Nat} : (fold target slot s).ReadsNoFile := by
  unfold fold
  grind

@[grind ←]
theorem readsNoFile_runtimeValue {target : TypeId} : (runtimeValue target s).ReadsNoFile := by
  unfold runtimeValue
  grind

@[grind ←]
theorem readsNoFile_store {target : TypeId} : (store target s).ReadsNoFile := by
  unfold store
  grind

@[grind ←]
theorem readsNoFile_assign {target : TypeId} {slot? : Option Nat} :
    (assign target slot? s).ReadsNoFile := by
  unfold assign
  grind

@[grind ←]
theorem readsNoFile_inferredValue : (inferredValue s).ReadsNoFile := by
  unfold inferredValue
  grind

@[grind ←]
theorem readsNoFile_storeInferred {payload : Payload} {value : TypedValue} :
    (storeInferred payload value).ReadsNoFile := by
  unfold storeInferred
  grind

@[grind ←]
theorem readsNoFile_declareInferred {declared : DeclaredName} :
    (declareInferred declared s).ReadsNoFile := by
  unfold declareInferred
  grind

@[grind ←]
theorem readsNoFile_assignment : (assignment s).ReadsNoFile := by
  unfold assignment
  grind

/-! ### Declarations -/

theorem readsNoFile_groupItems {item : (s : Stream) → Action (Shorter s)}
    (h : ∀ s, (item s).ReadsNoFile) (s : Stream) : (groupItems item s).ReadsNoFile := by
  rw [groupItems]
  split
  · exact readsNoFile_pure _
  refine readsNoFile_bind (h s) fun ⟨(), s₁, h₁⟩ => ?_
  refine readsNoFile_bind readsNoFile_separator fun ⟨(), s₂, h₂⟩ => ?_
  have hlt := (h₂.behind h₁).2
  exact readsNoFile_bind (readsNoFile_groupItems h s₂) fun _ => readsNoFile_pure _
termination_by s.size

theorem readsNoFile_keywordGroup {keyword : Symbol} {item : (s : Stream) → Action (Shorter s)}
    (h : ∀ s, (item s).ReadsNoFile) : (keywordGroup keyword item s).ReadsNoFile := by
  refine readsNoFile_bind readsNoFile_eat fun ⟨(), s₁, h₁⟩ => ?_
  refine readsNoFile_bind ?_ fun _ => readsNoFile_pure _
  unfold group
  split
  · exact h s₁
  · exact readsNoFile_bind (readsNoFile_groupItems h _) fun _ =>
      readsNoFile_bind readsNoFile_eat fun _ => readsNoFile_pure _

@[grind ←]
theorem readsNoFile_checkForwards : checkForwards.ReadsNoFile := by
  unfold checkForwards
  refine readsNoFile_bind readsNoFile_get fun s => ?_
  split
  · exact readsNoFile_pure _
  · split
    · exact readsNoFile_failInternal
    · exact readsNoFile_throw nofun

theorem readsNoFile_typeItem (s : Stream) : (typeItem s).ReadsNoFile :=
  readsNoFile_bind readsNoFile_readName fun _ => readsNoFile_bind readsNoFile_eat fun _ =>
    readsNoFile_bind (readsNoFile_typeExpression _) fun _ =>
      readsNoFile_bind readsNoFile_declareType fun _ => readsNoFile_pure _

@[grind ←]
theorem readsNoFile_typeDeclaration : (typeDeclaration s).ReadsNoFile := by
  unfold typeDeclaration
  grind [readsNoFile_keywordGroup, readsNoFile_typeItem]

theorem readsNoFile_constantItem (s : Stream) : (constantItem s).ReadsNoFile :=
  readsNoFile_bind readsNoFile_readName fun _ => readsNoFile_bind readsNoFile_eat fun _ =>
    readsNoFile_bind readsNoFile_constantExpression fun _ =>
      readsNoFile_bind readsNoFile_newIdent fun _ =>
        readsNoFile_bind readsNoFile_declare fun _ => readsNoFile_pure _

@[grind ←]
theorem readsNoFile_constantDeclaration : (constantDeclaration s).ReadsNoFile :=
  readsNoFile_keywordGroup readsNoFile_constantItem

@[grind ←]
theorem readsNoFile_declareVariables {type : TypeId} {names : List DeclaredName} :
    (declareVariables type names).ReadsNoFile := by
  induction names with
  | nil => exact readsNoFile_failInternal
  | cons declared more ih =>
    unfold declareVariables
    grind

@[grind ←]
theorem readsNoFile_prepareStorage {payload : Payload} : (prepareStorage payload).ReadsNoFile := by
  unfold prepareStorage
  grind

theorem readsNoFile_variableItem (s : Stream) : (variableItem s).ReadsNoFile := by
  unfold variableItem
  refine readsNoFile_bind (readsNoFile_typedNames maxVariables s) fun _ =>
    readsNoFile_bind readsNoFile_declareVariables fun _ => ?_
  dsimp only
  split
  · exact readsNoFile_pure _
  · rw [fail_bind]
    split
    · exact readsNoFile_fail (by simp)
    · exact readsNoFile_bind readsNoFile_prepareStorage fun _ =>
        readsNoFile_bind readsNoFile_assign fun _ => readsNoFile_pure _

@[grind ←]
theorem readsNoFile_variableDeclaration : (variableDeclaration s).ReadsNoFile :=
  readsNoFile_keywordGroup readsNoFile_variableItem

@[grind ←]
theorem readsNoFile_shortDeclaration : (shortDeclaration s).ReadsNoFile := by
  unfold shortDeclaration
  grind

/-! ### Statements and functions -/

@[grind ←]
theorem readsNoFile_enclosingSignature : enclosingSignature.ReadsNoFile := by
  unfold enclosingSignature
  grind

@[grind ←]
theorem readsNoFile_optionalValue {signature : Signature} :
    (optionalValue signature span s).ReadsNoFile := by
  unfold optionalValue returnedValue
  grind

@[grind ←]
theorem readsNoFile_returnStatement : (returnStatement s).ReadsNoFile := by
  unfold returnStatement
  grind

@[grind ←]
theorem readsNoFile_kept {action : Action (Shorter s)} (h : action.ReadsNoFile) :
    (kept action).ReadsNoFile :=
  readsNoFile_bind h fun _ => readsNoFile_pure _

mutual

theorem readsNoFile_statement (s : Stream) : (statement s).ReadsNoFile := by
  rw [statement]
  have block := readsNoFile_block s
  grind
termination_by 4 * s.size + 2

theorem readsNoFile_statements (s : Stream) : (statements s).ReadsNoFile := by
  rw [statements]
  refine readsNoFile_bind (readsNoFile_statement s) fun ⟨(), s₁, h₁⟩ => ?_
  dsimp only
  split
  · exact readsNoFile_pure _
  · rename_i semicolon _
    have hlt := (semicolon.lt.of_within h₁).2
    exact readsNoFile_bind (readsNoFile_statements semicolon.stream) fun _ => readsNoFile_pure _
termination_by 4 * s.size + 3

theorem readsNoFile_blockBody (s : Stream) : (blockBody s).ReadsNoFile := by
  rw [blockBody]
  refine readsNoFile_bind readsNoFile_eat fun ⟨(), s₁, h₁⟩ => ?_
  have hlt := h₁.2
  exact readsNoFile_bind (readsNoFile_statements s₁) fun _ =>
    readsNoFile_bind readsNoFile_eat fun _ => readsNoFile_pure _
termination_by 4 * s.size

theorem readsNoFile_block (s : Stream) : (block s).ReadsNoFile := by
  rw [block]
  have body := readsNoFile_blockBody s
  grind
termination_by 4 * s.size + 1

end

@[grind ←]
theorem readsNoFile_defineEntry {ident : Ident} {signature : Signature} :
    (defineEntry ident signature).ReadsNoFile := by
  unfold defineEntry
  grind

@[grind ←]
theorem readsNoFile_prepareEntry {ident : Ident} {signature : Signature} :
    (prepareEntry ident signature).ReadsNoFile := by
  unfold prepareEntry
  grind

@[grind ←]
theorem readsNoFile_functionBody {id : IdentId} {ident : Ident} {signature : Signature} :
    (functionBody id ident signature s).ReadsNoFile := by
  have block : (functionBlock signature ident.span s).ReadsNoFile :=
    readsNoFile_bind (readsNoFile_forM fun _ => readsNoFile_bind readsNoFile_declareVariable
      fun _ => readsNoFile_pure _) fun _ => readsNoFile_blockBody s
  unfold functionBody
  exact readsNoFile_bind readsNoFile_prepareEntry fun _ => readsNoFile_bind readsNoFile_get fun _ =>
    readsNoFile_bind (readsNoFile_modify _) fun _ => readsNoFile_bind readsNoFile_enter fun _ =>
      readsNoFile_bind block fun _ => readsNoFile_bind readsNoFile_emit fun _ =>
        readsNoFile_bind readsNoFile_leave fun _ => readsNoFile_bind (readsNoFile_modify _) fun _ =>
          readsNoFile_pure _

@[grind ←]
theorem readsNoFile_functionName {receiver? : Option TypeId} :
    (functionName receiver? s).ReadsNoFile := by
  unfold functionName checkMethodName
  grind

@[grind ←]
theorem readsNoFile_declareFunction {name : String} {exported : Bool} {receiver? : Option TypeId}
    {signature : Signature} {hasBody : Bool} :
    (declareFunction name exported receiver? signature hasBody span).ReadsNoFile := by
  unfold declareFunction
  grind

@[grind ←]
theorem readsNoFile_functionDeclaration : (functionDeclaration s).ReadsNoFile := by
  unfold functionDeclaration optionalReceiver
  grind [readsNoFile_signature]

theorem readsNoFile_declaration : (declaration s).ReadsNoFile := by
  unfold declaration
  grind

theorem readsNoFile_declarations (s : Stream) : (declarations s).ReadsNoFile := by
  rw [declarations]
  refine readsNoFile_bind readsNoFile_declaration fun ⟨(), s₁, h₁⟩ => ?_
  dsimp only
  split
  · exact readsNoFile_pure _
  · rename_i semicolon _
    have hlt := (semicolon.lt.of_within h₁).2
    exact readsNoFile_bind (readsNoFile_declarations semicolon.stream) fun _ => readsNoFile_pure _
termination_by s.size

end Action

end FrontEnd
