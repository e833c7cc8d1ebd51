import FrontEnd.Proofs.TypeExpression.Writes
import FrontEnd.Proofs.Statement

/-!
What does not return. Types, constants, variables and assignments emit instructions that stand for
themselves: control goes on behind each of them. There is no `return` among the words from which they
are read, either.
-/

namespace FrontEnd

/-- Control goes on behind the instruction. -/
def Instruction.goesOn : Instruction → Bool
  | goto _ | leave _ => false
  | _ => true

/-- A plain instruction behind which control does not go on is a return. -/
theorem Instruction.eq_leave {i : Instruction} (plain : i.isPlain = true)
    (stops : i.goesOn = false) : ∃ size, i = .leave size := by
  cases i with
  | leave size => exact ⟨size, rfl⟩
  | goto target => cases plain
  | _ => cases stops

/-- An instruction that neither is reserved nor leads elsewhere. -/
def Instruction.Proceeds (i : Instruction) : Prop := i.isPlain = true ∧ i.goesOn = true

theorem Instruction.Evaluates.proceeds {i : Instruction} (h : i.Evaluates) : i.Proceeds := by
  cases i <;> first | exact ⟨rfl, rfl⟩ | exact h.elim

/-- The words are those of types and expressions. -/
def Rest.IsTerm {s : Stream} {α : Type} (r : Rest s α) : Prop := Stream.PassesTerm [] s r.stream

/-- The words are those of types and expressions. -/
def Past.IsTerm {s : Stream} {α : Type} (p : Past s α) : Prop := Stream.PassesTerm [] s p.stream

namespace Session

variable {s t u : Session}

/-- Instructions behind which control goes on have been appended, and the same scopes are open. -/
structure Proceeds (s t : Session) : Prop where
  scope : t.blocks.scope = s.blocks.scope
  code : ∃ code : List Instruction, s.code.Appends t.code code ∧ ∀ i ∈ code, i.Proceeds

namespace Proceeds

theorem of_code (scope : t.blocks.scope = s.blocks.scope) (code : t.code = s.code) :
    s.Proceeds t :=
  ⟨scope, [], ⟨by rw [code], by rw [code, List.append_nil]⟩, nofun⟩

theorem refl (s : Session) : s.Proceeds s := .of_code rfl rfl

theorem trans (h : s.Proceeds t) (h' : t.Proceeds u) : s.Proceeds u := by
  obtain ⟨scope, code, appends, proceeds⟩ := h
  obtain ⟨scope', more, appends', proceeds'⟩ := h'
  exact ⟨scope'.trans scope, code ++ more, appends.trans appends',
    List.forall_mem_append.2 ⟨proceeds, proceeds'⟩⟩

theorem emit (s : Session) {i : Instruction} (h : i.Proceeds) :
    s.Proceeds { s with code := s.code.emit i } :=
  ⟨rfl, [i], Code.appends_emit s.code i, List.forall_mem_singleton.2 h⟩

end Proceeds

theorem Defines.proceeds (h : s.Defines t) : s.Proceeds t := by
  obtain ⟨types, idents, rfl⟩ := h
  exact .of_code rfl rfl

theorem EvaluationStep.proceeds {mode : Mode} (h : s.EvaluationStep mode t) : s.Proceeds t := by
  cases h with
  | text capacity => exact .of_code rfl rfl
  | emit _ i evaluates => exact .emit s evaluates.proceeds

end Session

namespace Action

open Session
open FrontEnd.Stream

variable {α : Type} {setup : Setup} {s : Session} {stream : Stream}

/-- What changes only types and identifiers emits nothing. -/
theorem Writes.proceeds {action : Action α} {Q : α → Session → Prop}
    (h : action.Writes setup Defines Q s) : action.Writes setup Proceeds Q s :=
  h.mono (fun _ _ => Defines.proceeds) fun _ _ => id

theorem Writes.proceeds_of_yields {action : Action α} {Q : α → Session → Prop} {v : α}
    {t : Session} (h : action.Writes setup Proceeds Q s) (yields : action.Yields setup s v t) :
    Q v t ∧ s.Proceeds t :=
  Ensures.of_run_ok (h.along Proceeds.refl Proceeds.trans fun _ _ => id) yields

theorem proceeds_emit {i : Instruction} (h : i.Proceeds) :
    (emit i).Writes setup Proceeds (fun _ _ => True) s :=
  ⟨.emit s h, trivial⟩

/-! ### Expressions -/

theorem proceeds_expression (mode : Mode) (stream : Stream) :
    (expression mode stream).Writes setup Proceeds (fun rest _ => rest.IsTerm) s :=
  (writes_expression mode stream).mono (fun _ _ => EvaluationStep.proceeds)
    fun _ _ passed => passed.inside

theorem proceeds_constantExpression (stream : Stream) :
    (constantExpression stream).Writes setup Proceeds (fun rest _ => rest.IsTerm) s :=
  (writes_constantExpression stream).mono (fun _ _ => EvaluationStep.proceeds)
    fun _ _ passed => passed.inside

theorem proceeds_setGlobal (slot : Nat) (value : Constant) :
    (setGlobal slot value).Writes setup Proceeds (fun _ _ => True) s := by
  unfold setGlobal
  rw [writes_get]
  split
  · exact ⟨.of_code rfl rfl, trivial⟩
  · exact writes_failInternal

theorem proceeds_fold (target : TypeId) (slot : Nat) (stream : Stream) :
    (fold target slot stream).Writes setup Proceeds (fun rest _ => rest.IsTerm) s := by
  unfold fold
  refine (proceeds_constantExpression stream).bind fun rest t term => ?_
  obtain ⟨⟨value, source⟩, s', h⟩ := rest
  rw [writes_get]
  refine writes_checkCompatible ?_
  exact (proceeds_setGlobal slot _).bind fun _ _ _ => term

theorem proceeds_widenOnStack (target source : TypeId) :
    (widenOnStack target source).Writes setup Proceeds (fun _ _ => True) s := by
  unfold widenOnStack
  rw [writes_get]
  split
  · exact (proceeds_emit ⟨rfl, rfl⟩).bind fun _ _ _ => trivial
  · trivial

theorem proceeds_runtimeValue (target : TypeId) (stream : Stream) :
    (runtimeValue target stream).Writes setup Proceeds (fun rest _ => rest.IsTerm) s := by
  unfold runtimeValue
  refine (proceeds_expression .runtime stream).bind fun rest t term => ?_
  refine (proceeds_widenOnStack _ _).bind fun source u _ => ?_
  exact writes_checkCompatible term

theorem proceeds_store (target : TypeId) (stream : Stream) :
    (store target stream).Writes setup Proceeds (fun rest _ => rest.IsTerm) s := by
  unfold store
  refine (proceeds_runtimeValue target stream).bind fun rest t term => ?_
  exact (proceeds_emit ⟨rfl, rfl⟩).bind fun _ _ _ => term

theorem proceeds_assign (target : TypeId) (slot? : Option Nat) (stream : Stream) :
    (assign target slot? stream).Writes setup Proceeds (fun rest _ => rest.IsTerm) s := by
  cases slot? with
  | some slot => exact proceeds_fold target slot stream
  | none => exact proceeds_store target stream

/-! ### Variables -/

theorem proceeds_declare (i : Ident) :
    (declare i).Writes setup Proceeds (fun _ _ => True) s :=
  (writes_declare fun idents => (s.defines_idents idents).proceeds).imp fun _ _ _ => trivial

theorem proceeds_allocate (name : String) (type : TypeId) (span : Span) :
    (allocate name type span).Writes setup Proceeds (fun _ _ => True) s := by
  unfold allocate
  rw [writes_get]
  split
  · exact ⟨.of_code rfl rfl, trivial⟩
  · split
    · rename_i fits
      obtain ⟨size, _, fits⟩ := Option.bind_eq_some_iff.1 fits
      exact ⟨.of_code (Blocks.allocate?_eq_some fits).1 rfl, trivial⟩
    · exact writes_fail

theorem proceeds_declareVariable (name : String) (exported : Bool) (type : TypeId) (span : Span) :
    (declareVariable name exported type span).Writes setup Proceeds (fun _ _ => True) s := by
  unfold declareVariable
  refine (proceeds_allocate name type span).bind fun payload t _ => ?_
  rw [writes_newIdent]
  exact (proceeds_declare _).bind fun _ _ _ => trivial

theorem proceeds_declareVariables (type : TypeId) (names : List DeclaredName) :
    (declareVariables type names).Writes setup Proceeds (fun _ _ => True) s := by
  induction names generalizing s with
  | nil => exact writes_failInternal
  | cons declared more ih =>
    rw [declareVariables]
    refine (proceeds_declareVariable _ _ _ _).bind fun v t _ => ?_
    dsimp only
    split
    · trivial
    · exact ih

theorem proceeds_parameters (parameters : List Parameter) (span : Span) :
    (parameters.forM fun p => discard (declareVariable p.name false p.type span)).Writes setup
      Proceeds (fun _ _ => True) s := by
  induction parameters generalizing s with
  | nil => trivial
  | cons p parameters ih =>
    refine Writes.bind (P := fun _ _ => True) ?_ fun _ _ _ => ih
    exact (proceeds_declareVariable p.name false p.type span).bind fun _ _ _ => trivial

theorem proceeds_prepareStorage (payload : Payload) :
    (prepareStorage payload).Writes setup Proceeds (fun _ _ => True) s := by
  unfold prepareStorage
  split
  · trivial
  · exact (proceeds_emit ⟨rfl, rfl⟩).bind fun _ _ _ => trivial
  · exact writes_failInternal

theorem proceeds_inferredValue (stream : Stream) :
    (inferredValue stream).Writes setup Proceeds (fun rest _ => rest.IsTerm) s := by
  unfold inferredValue
  rw [writes_get]
  split
  · exact (proceeds_constantExpression stream).bind fun _ _ term => term
  · exact (proceeds_expression .runtime stream).bind fun _ _ term => term

theorem proceeds_storeInferred (payload : Payload) (value : TypedValue) :
    (storeInferred payload value).Writes setup Proceeds (fun _ _ => True) s := by
  unfold storeInferred
  split
  · exact proceeds_setGlobal _ _
  · refine (proceeds_emit ⟨rfl, rfl⟩).bind fun _ t _ => ?_
    exact (proceeds_emit ⟨rfl, rfl⟩).bind fun _ _ _ => trivial
  · exact writes_failInternal

theorem proceeds_declareInferred (declared : DeclaredName) (stream : Stream) :
    (declareInferred declared stream).Writes setup Proceeds (fun rest _ => rest.IsTerm) s := by
  unfold declareInferred
  refine (proceeds_inferredValue stream).bind fun rest t term => ?_
  dsimp only
  split
  · trivial
  · refine (proceeds_declareVariable _ _ _ _).bind fun v u _ => ?_
    exact (proceeds_storeInferred _ _).bind fun _ _ _ => term

/-! ### Statements -/

/-- The statement is read from words of types and expressions, and control goes on behind it. -/
def GoesOn (setup : Setup) (item : (s : Stream) → Action (Shorter s)) : Prop :=
  ∀ (stream : Stream) (s : Session),
    (item stream).Writes setup Proceeds (fun past _ => past.IsTerm) s

section Groups

variable {item : (s : Stream) → Action (Shorter s)}

theorem proceeds_groupItems (h : GoesOn setup item) (stream : Stream) (s : Session) :
    (groupItems item stream).Writes setup Proceeds (fun rest _ => rest.IsTerm) s := by
  rw [groupItems]
  split
  · exact PassesTerm.refl [] stream
  · refine (h stream s).bind fun first t term => ?_
    have shorter := first.lt.2
    refine writes_separator fun rest between => ?_
    have within := rest.le.2
    refine (proceeds_groupItems h rest.stream t).bind fun last u more => ?_
    exact PassesTerm.trans term (between.trans more)
termination_by stream.size

theorem goesOn_group (h : GoesOn setup item) : GoesOn setup (group item) := by
  intro stream s
  unfold group
  split
  · exact h stream s
  · rename_i s₁ h₁ opened
    refine (proceeds_groupItems h s₁ s).bind fun rest t inside => ?_
    exact writes_eat fun last closed =>
      passesTerm_brackets [] rfl opened (t := rest.stream) inside closed

theorem goesOn_keywordGroup (h : GoesOn setup item) {keyword : Symbol}
    (plain : Token.isPlain [] ⟨.symbol keyword, .origin⟩ = true)
    (other : Token.isReturn ⟨.symbol keyword, .origin⟩ = false) :
    GoesOn setup (keywordGroup keyword item) := by
  intro stream s
  unfold keywordGroup
  refine writes_eat fun first word => (goesOn_group h _ s).bind fun last t term => ?_
  exact (passesTerm_of_skip? word plain other).trans term

end Groups

theorem goesOn_typeItem : GoesOn setup typeItem := by
  intro stream s
  unfold typeItem
  refine writes_ofExcept fun declared named => writes_eat fun sign assigned => ?_
  refine (defines_typeExpression _ s).proceeds.bind fun past t passed => ?_
  refine (defines_declareType _ _ _ _).proceeds.bind fun _ u _ => ?_
  exact (DeclaredName.passesTerm_read named).trans
    ((passesTerm_of_skip? assigned rfl rfl).trans passed.inside)

theorem proceeds_checkForwards : checkForwards.Writes setup Proceeds (fun _ _ => True) s := by
  unfold checkForwards
  rw [writes_get]
  split
  · trivial
  · split
    · exact writes_failInternal
    · trivial

theorem goesOn_typeDeclaration : GoesOn setup typeDeclaration := by
  intro stream s
  unfold typeDeclaration
  have items : GoesOn setup (keywordGroup .typeWord typeItem) :=
    goesOn_keywordGroup goesOn_typeItem rfl rfl
  refine (items stream s).bind fun past t term => ?_
  split
  · exact proceeds_checkForwards.bind fun _ _ _ => term
  · exact term

theorem goesOn_constantItem : GoesOn setup constantItem := by
  intro stream s
  unfold constantItem
  refine writes_ofExcept fun declared named => writes_eat fun sign assigned => ?_
  refine (proceeds_constantExpression _).bind fun rest t term => ?_
  rw [writes_newIdent]
  refine (proceeds_declare _).bind fun _ u _ => ?_
  exact (DeclaredName.passesTerm_read named).trans
    ((passesTerm_of_skip? assigned rfl rfl).trans term)

theorem goesOn_constantDeclaration : GoesOn setup constantDeclaration :=
  goesOn_keywordGroup goesOn_constantItem rfl rfl

theorem goesOn_variableItem : GoesOn setup variableItem := by
  intro stream s
  unfold variableItem
  refine (defines_typedNames _ stream s).proceeds.bind fun past t passed => ?_
  refine (proceeds_declareVariables _ _).bind fun payload u _ => ?_
  dsimp only
  split
  · exact passed
  · rename_i sign found
    split
    · exact writes_fail
    · refine (proceeds_prepareStorage payload).bind fun slot? v _ => ?_
      refine (proceeds_assign _ slot? _).bind fun rest w term => ?_
      exact passed.trans ((passesTerm_of_skip? found rfl rfl).trans term)

theorem goesOn_variableDeclaration : GoesOn setup variableDeclaration :=
  goesOn_keywordGroup goesOn_variableItem rfl rfl

theorem goesOn_shortDeclaration : GoesOn setup shortDeclaration := by
  intro stream s
  unfold shortDeclaration
  refine writes_ofExcept fun declared named => writes_eat fun sign assigned => ?_
  refine (proceeds_declareInferred _ _).bind fun rest t term => ?_
  exact (DeclaredName.passesTerm_read named).trans
    ((passesTerm_of_skip? assigned rfl rfl).trans term)

theorem proceeds_address {ident : Ident} {i : Instruction} (h : address? ident = some i) :
    i.Proceeds := by
  unfold address? at h
  split at h <;> cases h <;> exact ⟨rfl, rfl⟩

theorem goesOn_assignment : GoesOn setup assignment := by
  intro stream s
  unfold assignment
  refine writes_reference fun past passed => ?_
  obtain ⟨⟨id, ident⟩, s₁, h₁⟩ := past
  dsimp only
  split
  · exact writes_fail
  · rename_i address known
    refine (proceeds_emit (proceeds_address known)).bind fun _ t _ => ?_
    refine writes_eat fun sign assigned => (proceeds_store _ _).bind fun rest u term => ?_
    exact passed.inside.trans ((passesTerm_of_skip? assigned rfl rfl).trans term)

/-- The value behind `return` does not return yet. -/
theorem proceeds_returnedValue (signature : Signature) (result : TypeId) (stream : Stream) :
    (returnedValue signature result stream).Writes setup Proceeds (fun rest _ => rest.IsTerm) s := by
  unfold returnedValue
  split
  · exact proceeds_runtimeValue result stream
  · refine (proceeds_emit ⟨rfl, rfl⟩).bind fun _ t _ => ?_
    exact (proceeds_emit ⟨rfl, rfl⟩).bind fun _ u _ => proceeds_store result stream

end Action

end FrontEnd
