import FrontEnd.Proofs.Calls.TypeExpression

/-!
The steps of declarations, functions and statements: which of them a reader makes itself, and which
are made by the readers that it calls.
-/

namespace FrontEnd

namespace Action

open Session

variable {α : Type} {setup : Setup} {run : List Session} {R : Session → Session → Prop}
  {s : Session} {stream : Stream} {r : Reading}

theorem steps_kept {action : Action (Shorter stream)} (h : action.StepsIn setup run R s) :
    (kept action).StepsIn setup run R s :=
  steps_bind h fun _ _ _ => steps_pure

theorem steps_checkForwards : checkForwards.StepsIn setup run R s := by
  unfold checkForwards
  rw [steps_get]
  split
  · exact steps_pure
  · split
    · exact steps_failInternal
    · exact steps_throw

/-! ### Values -/

section Values

variable (h : r.Makes setup run R)

include h

theorem steps_fold (target : TypeId) (slot : Nat)
    (call : r.Calls setup ⟨.expression .constant, stream, s⟩) :
    (fold target slot stream).StepsIn setup run R s := by
  unfold fold
  refine steps_bind (steps_constantExpression h call) fun rest t _ => ?_
  rw [steps_get]
  refine steps_bind (steps_checkCompatible _ _ _) fun _ _ _ => ?_
  exact steps_bind (h.setGlobal _ _) fun _ _ _ => steps_pure

theorem steps_widenOnStack (target source : TypeId) :
    (widenOnStack target source).StepsIn setup run R s := by
  unfold widenOnStack
  rw [steps_get]
  split
  · exact steps_bind (h.emit _) fun _ _ _ => steps_pure
  · exact steps_pure

theorem steps_runtimeValue (target : TypeId)
    (call : r.Calls setup ⟨.expression .runtime, stream, s⟩) :
    (runtimeValue target stream).StepsIn setup run R s := by
  unfold runtimeValue
  refine steps_bind (h.calls _ call) fun rest t _ => ?_
  refine steps_bind (steps_widenOnStack h _ _) fun source u _ => ?_
  exact steps_bind (steps_checkCompatible _ _ _) fun _ _ _ => steps_pure

theorem steps_store (target : TypeId) (call : r.Calls setup ⟨.expression .runtime, stream, s⟩) :
    (store target stream).StepsIn setup run R s := by
  unfold store
  refine steps_bind (steps_runtimeValue h target call) fun rest t _ => ?_
  exact steps_bind (h.emit _) fun _ _ _ => steps_pure

theorem steps_assign (target : TypeId) (slot? : Option Nat)
    (call : r.Calls setup ⟨.expression (modeOf slot?.isSome), stream, s⟩) :
    (assign target slot? stream).StepsIn setup run R s := by
  cases slot? with
  | some slot => exact steps_fold h target slot call
  | none => exact steps_store h target call

theorem steps_inferredValue
    (call : r.Calls setup ⟨.expression (modeOf s.blocks.atModuleScope), stream, s⟩) :
    (inferredValue stream).StepsIn setup run R s := by
  unfold inferredValue
  rw [steps_get]
  split
  · rename_i outside
    rw [outside] at call
    exact steps_bind (steps_constantExpression h call) fun _ _ _ => steps_pure
  · rename_i inside
    rw [Bool.eq_false_iff.2 inside] at call
    exact steps_bind (h.calls _ call) fun _ _ _ => steps_pure

theorem steps_storeInferred (payload : Payload) (value : TypedValue) :
    (storeInferred payload value).StepsIn setup run R s := by
  unfold storeInferred
  split
  · exact h.setGlobal _ _
  · refine steps_bind (h.emit _) fun _ _ _ => ?_
    exact steps_bind (h.emit _) fun _ _ _ => steps_pure
  · exact steps_failInternal

theorem steps_declareInferred (declared : DeclaredName)
    (call : r.Calls setup ⟨.expression (modeOf s.blocks.atModuleScope), stream, s⟩) :
    (declareInferred declared stream).StepsIn setup run R s := by
  unfold declareInferred
  refine steps_bind (steps_inferredValue h call) fun rest t _ => ?_
  dsimp only
  split
  · exact steps_of_trace_eq_nil rfl
  refine steps_bind (h.declareVariable _ _ _ _) fun payload u _ => ?_
  exact steps_bind (steps_storeInferred h _ _) fun _ _ _ => steps_pure

theorem steps_declareVariables (type : TypeId) (names : List DeclaredName) :
    (declareVariables type names).StepsIn setup run R s := by
  induction names generalizing s with
  | nil => exact steps_failInternal
  | cons declared more ih =>
    rw [declareVariables]
    refine steps_bind (h.declareVariable _ _ _ _) fun v t _ => ?_
    dsimp only
    split
    · exact steps_pure
    · exact ih

theorem steps_prepareStorage (payload : Payload) :
    (prepareStorage payload).StepsIn setup run R s := by
  cases payload with
  | global => exact steps_pure
  | «local» => exact steps_bind (h.emit _) fun _ _ _ => steps_pure
  | _ => exact steps_failInternal

end Values

/-! ### Declarations -/

theorem steps_group {item : Item} (h : Reading.Makes ⟨.group item, stream, s⟩ setup run R) :
    (group item.read stream).StepsIn setup run R s := by
  unfold group
  split
  · rename_i single
    exact h.calls _ (.declaration (.groupItem single))
  · rename_i first le opened
    refine steps_bind (h.calls _ (.declaration (.groupItems opened))) fun rest t _ => ?_
    exact steps_eat fun _ _ => steps_pure

theorem steps_groupItems {item : Item} (h : Reading.Makes ⟨.items item, stream, s⟩ setup run R) :
    (groupItems item.read stream).StepsIn setup run R s := by
  rw [groupItems]
  split
  · exact steps_pure
  rename_i named
  have named := Bool.eq_false_iff.2 named
  refine steps_bind (h.calls _ (.declaration (.firstItem named))) fun first t read => ?_
  refine steps_bind (steps_separator _ _) fun rest u between => ?_
  refine steps_bind (h.calls _ (.declaration (.nextItems named read between))) fun _ _ _ => ?_
  exact steps_pure

theorem steps_typeItem (h : Reading.Makes ⟨.item .type, stream, s⟩ setup run R) :
    (typeItem stream).StepsIn setup run R s := by
  unfold typeItem
  refine steps_ofExcept fun declared named => ?_
  refine steps_eat fun sign assigned => ?_
  refine steps_bind (h.calls _ (.declaration (.namedType named assigned))) fun past t _ => ?_
  exact steps_bind (h.declareType _ _ _ _) fun _ _ _ => steps_pure

theorem steps_constantItem (h : Reading.Makes ⟨.item .constant, stream, s⟩ setup run R) :
    (constantItem stream).StepsIn setup run R s := by
  unfold constantItem
  refine steps_ofExcept fun declared named => ?_
  refine steps_eat fun sign assigned => ?_
  have call : Reading.CallsInDeclaration setup _ ⟨_, _, s⟩ := .constantValue named assigned
  refine steps_bind (steps_constantExpression h (.declaration call)) fun past t _ => ?_
  exact steps_get.2 (steps_bind (h.declare _) fun _ _ _ => steps_pure)

theorem steps_variableItem (h : Reading.Makes ⟨.item .var, stream, s⟩ setup run R) :
    (variableItem stream).StepsIn setup run R s := by
  unfold variableItem
  refine steps_bind (h.calls _ (.declaration .variableNames)) fun past t named => ?_
  refine steps_bind (steps_declareVariables h _ _) fun payload u declared => ?_
  dsimp only
  split
  · exact steps_pure
  · rename_i sign assigned
    split
    · exact steps_fail
    refine steps_bind (steps_prepareStorage h _) fun slot? v prepared => ?_
    have call := Reading.CallsInDeclaration.initialValue named declared assigned prepared
    exact steps_bind (steps_assign h _ _ (.declaration call)) fun _ _ _ => steps_pure

theorem steps_item {item : Item} (h : Reading.Makes ⟨.item item, stream, s⟩ setup run R) :
    (item.read stream).StepsIn setup run R s := by
  cases item with
  | type => exact steps_typeItem h
  | constant => exact steps_constantItem h
  | var => exact steps_variableItem h

theorem steps_shortDeclaration (h : Reading.Makes ⟨.shortDeclaration, stream, s⟩ setup run R) :
    (shortDeclaration stream).StepsIn setup run R s := by
  unfold shortDeclaration
  refine steps_ofExcept fun declared named => ?_
  refine steps_eat fun sign assigned => ?_
  have call : Reading.CallsInDeclaration setup _ ⟨_, _, s⟩ := .inferredValue named assigned
  exact steps_bind (steps_declareInferred h _ (.declaration call)) fun _ _ _ => steps_pure

/-- A keyword and its items, where whoever reads them calls the reader of the items. -/
theorem steps_keywordGroup (h : r.Makes setup run R) (item : Item)
    (call : ∀ first, stream.skip? item.keyword = some first →
      r.Calls setup ⟨.group item, first.stream, s⟩) :
    (keywordGroup item.keyword item.read stream).StepsIn setup run R s := by
  unfold keywordGroup
  refine steps_eat fun first word => ?_
  exact steps_bind (h.calls _ (call first word)) fun _ _ _ => steps_pure

theorem steps_typeDeclaration (h : r.Makes setup run R)
    (call : ∀ first, stream.skip? Item.type.keyword = some first →
      r.Calls setup ⟨.group .type, first.stream, s⟩) :
    (typeDeclaration stream).StepsIn setup run R s := by
  unfold typeDeclaration
  refine steps_bind (steps_keywordGroup h .type call) fun rest t _ => ?_
  split
  · exact steps_bind steps_checkForwards fun _ _ _ => steps_pure
  · exact steps_pure

theorem steps_declaration (h : Reading.Makes ⟨.declaration, stream, s⟩ setup run R) :
    (declaration stream).StepsIn setup run R s := by
  have call (item : Item) (first : Shorter stream) (word : stream.skip? item.keyword = some first) :
      Reading.Calls setup ⟨.declaration, stream, s⟩ ⟨.group item, first.stream, s⟩ :=
    .declaration (.declaredGroup word)
  unfold declaration
  split
  · exact steps_kept (steps_typeDeclaration h (call .type))
  · exact steps_kept (steps_keywordGroup h .constant (call .constant))
  · exact steps_kept (steps_keywordGroup h .var (call .var))
  · exact steps_kept (h.calls _ (.declaration (.declaredFunction ‹_›)))
  · exact steps_kept (h.calls _ (.declaration (.declaredName ‹_›)))
  · rw [steps_get]
    split
    · exact steps_pure
    · exact steps_fail

theorem steps_declarations (h : Reading.Makes ⟨.declarations, stream, s⟩ setup run R) :
    (declarations stream).StepsIn setup run R s := by
  rw [declarations]
  refine steps_bind (h.calls _ (.declaration .firstDeclaration)) fun first t read => ?_
  dsimp only
  split
  · exact steps_pure
  · rename_i semicolon found
    have call := Reading.CallsInDeclaration.nextDeclarations read found
    exact steps_bind (h.calls _ (.declaration call)) fun _ _ _ => steps_pure

/-! ### Functions -/

theorem steps_receiver (h : Reading.Makes ⟨.receiver, stream, s⟩ setup run R) :
    (receiver stream).StepsIn setup run R s := by
  unfold receiver
  refine steps_eat fun first opened => ?_
  refine steps_eatName fun name named => ?_
  refine steps_eat fun colon typed => ?_
  refine steps_bind (h.calls _ (.function (.receiverType opened named typed))) fun past t _ => ?_
  rw [steps_get]
  dsimp only
  split
  · exact steps_fail
  · exact steps_eat fun _ _ => steps_pure

theorem steps_optionalReceiver (h : r.Makes setup run R)
    (call : stream.isAt .openParen = true → r.Calls setup ⟨.receiver, stream, s⟩) :
    (optionalReceiver stream).StepsIn setup run R s := by
  unfold optionalReceiver
  split
  · rename_i opened
    exact steps_bind (h.calls _ (call opened)) fun _ _ _ => steps_pure
  · exact steps_pure

theorem steps_checkMethodName (base : TypeId) (name : String) (span : Span) :
    (checkMethodName base name span).StepsIn setup run R s := by
  unfold checkMethodName
  rw [steps_get]
  simp only [fail_bind]
  split
  · exact steps_fail
  split
  · exact steps_fail
  · exact steps_pure

theorem steps_functionName (receiver? : Option TypeId) (stream : Stream) :
    (functionName receiver? stream).StepsIn setup run R s := by
  unfold functionName
  refine steps_eatName fun name _ => ?_
  split
  · exact steps_bind (steps_checkMethodName _ _ _) fun _ _ _ => steps_pure
  · exact steps_pure

theorem steps_declareFunction (h : r.Makes setup run R) (name : String) (exported : Bool)
    (receiver? : Option TypeId) (signature : Signature) (hasBody : Bool) (span : Span) :
    (declareFunction name exported receiver? signature hasBody span).StepsIn setup run R s := by
  unfold declareFunction
  refine steps_bind (h.addType _) fun type t _ => ?_
  exact steps_get.2 (steps_get.2 (steps_bind (h.declare _) fun _ _ _ => steps_pure))

theorem steps_functionDeclaration
    (h : Reading.Makes ⟨.functionDeclaration, stream, s⟩ setup run R) :
    (functionDeclaration stream).StepsIn setup run R s := by
  unfold functionDeclaration
  rw [steps_get]
  simp only [fail_bind]
  split
  · exact steps_fail
  refine steps_eat fun first word => ?_
  refine steps_bind ?_ fun head t received => ?_
  · exact steps_optionalReceiver h fun opened => .function (.receiver word opened)
  refine steps_bind (steps_functionName _ _) fun name u named => ?_
  have call := Reading.CallsInFunction.functionSignature word received named
  refine steps_bind (h.calls _ (.function call)) fun past v read => ?_
  refine steps_bind (steps_declareFunction h _ _ _ _ _ _) fun declared w started => ?_
  split
  · rename_i hasBody
    rw [hasBody] at started
    have call := Reading.CallsInFunction.functionBody word received named read started
    exact steps_bind (h.calls _ (.function call)) fun _ _ _ => steps_pure
  · exact steps_bind (h.emit _) fun _ _ _ => steps_pure

theorem steps_prepareEntry (h : r.Makes setup run R) (ident : Ident) (signature : Signature) :
    (prepareEntry ident signature).StepsIn setup run R s := by
  unfold prepareEntry defineEntry
  rw [steps_read, steps_get]
  split
  · split
    · rw [steps_read]
      exact steps_fail
    · rw [steps_get]
      split
      · exact steps_failInternal
      · exact steps_write (h.types rfl rfl rfl) steps_pure
  · exact steps_pure

theorem steps_declareParameters (h : r.Makes setup run R) (span : Span)
    (parameters : List Parameter) :
    (parameters.forM fun p => discard (declareVariable p.name false p.type span)).StepsIn setup run
      R s := by
  induction parameters generalizing s with
  | nil => exact steps_pure
  | cons parameter parameters ih =>
    refine steps_bind ?_ fun _ _ _ => ih
    exact steps_bind (h.declareVariable _ _ _ _) fun _ _ _ => steps_pure

theorem steps_functionBody {id : IdentId} {ident : Ident} {signature : Signature}
    (h : Reading.Makes ⟨.functionBody id ident signature, stream, s⟩ setup run R) :
    (functionBody id ident signature stream).StepsIn setup run R s := by
  unfold functionBody
  refine steps_bind (steps_prepareEntry h _ _) fun _ t prepared => ?_
  rw [steps_get]
  refine steps_modify (h.types rfl rfl rfl) (steps_modify (h.types rfl rfl rfl) ?_)
  refine steps_bind ?_ fun rest u _ => ?_
  · unfold functionBlock
    refine steps_bind (steps_declareParameters h _ _) fun _ u declared => ?_
    exact h.calls _ (.function (.functionBlock prepared declared))
  refine steps_bind (h.emit _) fun _ v _ => ?_
  exact steps_modify (h.types rfl rfl rfl) (steps_modify (h.types rfl rfl rfl) steps_pure)

/-! ### Statements -/

theorem steps_statement (h : Reading.Makes ⟨.statement, stream, s⟩ setup run R) :
    (statement stream).StepsIn setup run R s := by
  have call (item : Item) (first : Shorter stream) (word : stream.skip? item.keyword = some first) :
      Reading.Calls setup ⟨.statement, stream, s⟩ ⟨.group item, first.stream, s⟩ :=
    .statement (.statedGroup word)
  rw [statement]
  split
  · exact steps_pure
  · exact steps_pure
  · exact steps_kept (steps_typeDeclaration h (call .type))
  · exact steps_kept (steps_keywordGroup h .constant (call .constant))
  · exact steps_kept (steps_keywordGroup h .var (call .var))
  · exact steps_fail
  · exact steps_kept (h.calls _ (.statement (.statedBlock ‹_›)))
  · exact steps_kept (h.calls _ (.statement (.statedReturn ‹_›)))
  · split
    · exact steps_kept (h.calls _ (.statement (.statedName ‹_›)))
    · rename_i starts
      exact steps_kept (h.calls _ (.statement (.statedAssignment (Bool.eq_false_iff.2 starts))))
  · exact steps_fail

theorem steps_statements (h : Reading.Makes ⟨.statements, stream, s⟩ setup run R) :
    (statements stream).StepsIn setup run R s := by
  rw [statements]
  refine steps_bind (h.calls _ (.statement .firstStatement)) fun first t read => ?_
  dsimp only
  split
  · exact steps_pure
  · rename_i semicolon found
    have call := Reading.CallsInStatement.nextStatements read found
    exact steps_bind (h.calls _ (.statement call)) fun _ _ _ => steps_pure

theorem steps_blockBody (h : Reading.Makes ⟨.blockBody, stream, s⟩ setup run R) :
    (blockBody stream).StepsIn setup run R s := by
  rw [blockBody]
  refine steps_eat fun first opened => ?_
  refine steps_bind (h.calls _ (.statement (.blockStatements opened))) fun rest t _ => ?_
  exact steps_eat fun _ _ => steps_pure

theorem steps_block (h : Reading.Makes ⟨.block, stream, s⟩ setup run R) :
    (block stream).StepsIn setup run R s := by
  rw [block]
  refine steps_modify (h.types rfl rfl rfl) ?_
  refine steps_bind (h.calls _ (.statement .blockBody)) fun rest t _ => ?_
  exact steps_modify (h.types rfl rfl rfl) steps_pure

theorem steps_enclosingSignature : enclosingSignature.StepsIn setup run R s := by
  unfold enclosingSignature
  rw [steps_get]
  split
  · exact steps_failInternal
  · split
    · exact steps_failInternal
    · exact steps_pure

theorem steps_returnStatement (h : Reading.Makes ⟨.returnStatement, stream, s⟩ setup run R) :
    (returnStatement stream).StepsIn setup run R s := by
  unfold returnStatement
  refine steps_eat fun first word => ?_
  refine steps_bind steps_enclosingSignature fun signature t inside => ?_
  refine steps_bind ?_ fun rest u _ => steps_bind (h.emit _) fun _ _ _ => steps_pure
  unfold optionalValue
  simp only [fail_bind]
  split
  · split
    · exact steps_of_trace_eq_nil rfl
    · exact steps_pure
  split
  · exact steps_fail
  unfold returnedValue
  split
  · rename_i plain
    exact steps_runtimeValue h _ (.statement (.returnedValue word inside plain))
  · rename_i parameter hidden
    refine steps_bind (h.emit _) fun a v pushed => ?_
    refine steps_bind (h.emit _) fun b w loaded => ?_
    exact steps_store h _ (.statement (.returnedStructure word inside hidden pushed loaded))

theorem steps_reference (stream : Stream) : (reference stream).StepsIn setup run R s := by
  refine steps_reads (Q := fun _ _ => True) ?_
  rw [← bind_pure (reference stream)]
  exact writes_reference fun _ _ => trivial

theorem steps_assignment (h : Reading.Makes ⟨.assignment, stream, s⟩ setup run R) :
    (assignment stream).StepsIn setup run R s := by
  unfold assignment
  refine steps_bind (steps_reference stream) fun past t referred => ?_
  dsimp only
  split
  · exact steps_fail
  · rename_i address stored
    refine steps_bind (h.emit _) fun a u pushed => ?_
    refine steps_eat fun sign assigned => ?_
    have call := Reading.CallsInStatement.assignedValue referred stored pushed assigned
    exact steps_bind (steps_store h _ (.statement call)) fun _ _ _ => steps_pure

end Action

end FrontEnd
