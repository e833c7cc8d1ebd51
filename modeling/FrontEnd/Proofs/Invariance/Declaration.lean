import FrontEnd.Program
import FrontEnd.Proofs.Invariance

/-!
What all declarations, assignments and statements keep.
-/

namespace FrontEnd

/-- The session in which the words of a file are read as those of a module. -/
def Session.opened (s : Session) (path : String) (names : NameTable) (module : ModuleId)
    (modules : ModuleTable) : Session :=
  { s.enterFile path with names, modules, blocks := { s.blocks with module } }

namespace Action

/-- An invariance that also holds of type expressions, of variables, and of whatever opens a block, a
function or a file and closes it again. -/
structure Conservation (setup : Setup) (run : List Session) (E P : Session → Session → Prop) :
    Prop extends Invariance setup run E P where
  typeExpression (stream : Stream) (s : Session) :
    toInvariance.Conserves (typeExpression stream) Past.Moved s
  names (s : Session) (names : NameTable) : P s { s with names }
  globals (s : Session) (globals : Array Global) : P s { s with globals }
  frame (s : Session) {size offset : Int64} {blocks : Blocks}
    (fits : s.blocks.allocate? size = some (offset, blocks)) : P s { s with blocks }
  imports (s : Session) (importer imported : ModuleId) :
    P s { s with modules := s.modules.addImport importer imported }
  leaveBlock {s t : Session} (h : P { s with blocks := s.blocks.enter none } t) :
    P s { t with blocks := t.blocks.leave }
  failInBlock {s t : Session} (h : E { s with blocks := s.blocks.enter none } t) : E s t
  leaveBody {s t : Session} (name : String) (id : IdentId)
    (h : P { s with
      place := { s.place with function? := some name }, blocks := s.blocks.enter (some id) } t) :
    P s { t with
      blocks := t.blocks.leave, place := { t.place with function? := s.place.function? } }
  failInBody {s t : Session} (name : String) (id : IdentId)
    (h : E { s with
      place := { s.place with function? := some name }, blocks := s.blocks.enter (some id) } t) :
    E s t
  leaveFile {s t : Session} (path : String) (names : NameTable) (module : ModuleId)
    (modules modules' : ModuleTable) (h : P (s.opened path names module modules) t) :
    P s (Session.leaveFile { t with modules := modules' } s.frame)
  failInFile {s t : Session} (path : String) (names : NameTable) (module : ModuleId)
    (modules : ModuleTable) (h : E (s.opened path names module modules) t) :
    E s (t.leaveFile s.frame)

variable {α β : Type} {setup : Setup} {run : List Session} {E P : Session → Session → Prop}
  {s : Session} {stream : Stream}

namespace Conservation

variable (c : Conservation setup run E P)

include c

theorem types (stream : Stream) : c.TypesBehind stream := fun m s _ => c.typeExpression m s

/-! ### Groups -/

section Groups

variable {item : (s : Stream) → Action (Shorter s)}

theorem groupItems (h : ∀ stream s, c.Conserves (item stream) Past.Moved s) (stream : Stream)
    (s : Session) : c.Conserves (groupItems item stream) Rest.Moved s := by
  rw [Action.groupItems]
  split
  · exact c.pure (Stream.Passes.refl [] stream)
  · refine c.bind (h stream s) fun first t _ moved => ?_
    have shorter := first.lt.2
    refine c.bind (c.separator _ first.stream) fun rest u _ between => ?_
    have within := rest.le.2
    refine c.bind (groupItems h rest.stream u) fun last v _ more => c.pure ?_
    exact Stream.Passes.trans moved (Stream.Passes.trans between more)
termination_by stream.size

theorem group (h : ∀ stream s, c.Conserves (item stream) Past.Moved s) (stream : Stream) :
    c.Conserves (group item stream) Past.Moved s := by
  unfold Action.group
  split
  · exact h stream s
  · rename_i s₁ h₁ opened
    refine c.bind (c.groupItems h s₁ s) fun rest t _ inside => ?_
    refine c.bind (c.eat _ _) fun last u _ closed => c.pure ?_
    exact Stream.passes_brackets [] rfl opened (t := rest.stream) inside closed

theorem keywordGroup (h : ∀ stream s, c.Conserves (item stream) Past.Moved s) {keyword : Symbol}
    (plain : Token.isPlain [] ⟨.symbol keyword, .origin⟩ = true) (stream : Stream) :
    c.Conserves (keywordGroup keyword item stream) Past.Moved s := by
  unfold Action.keywordGroup
  refine c.bind (c.eat _ _) fun first t _ word => ?_
  refine c.bind (c.group h first.stream) fun last u _ moved => c.pure ?_
  exact (Stream.passes_of_skip? word plain).trans moved

end Groups

/-! ### Types and constants -/

theorem checkForwards : c.Conserves checkForwards (fun _ => True) s := by
  unfold Action.checkForwards
  rw [c.get]
  split
  · exact c.pure trivial
  · split
    · exact c.failInternal
    · exact c.throw

theorem typeItem (stream : Stream) (s : Session) :
    c.Conserves (typeItem stream) Past.Moved s := by
  unfold Action.typeItem
  refine c.bind (c.ofExcept _) fun declared t _ named => ?_
  refine c.bind (c.eat _ _) fun sign u _ assigned => ?_
  refine c.bind (c.typeExpression _ u) fun past v _ moved => ?_
  refine c.bind (c.declareType _ _ _ _) fun _ w _ _ => c.pure ?_
  exact (DeclaredName.passesTerm_read named).passes.trans
    ((Stream.passes_of_skip? assigned rfl).trans moved)

theorem typeDeclaration (stream : Stream) :
    c.Conserves (typeDeclaration stream) Past.Moved s := by
  unfold Action.typeDeclaration
  refine c.bind (c.keywordGroup c.typeItem rfl stream) fun past t _ moved => ?_
  split
  · exact c.bind c.checkForwards fun _ u _ _ => c.pure moved
  · exact c.pure moved

theorem constantItem (stream : Stream) (s : Session) :
    c.Conserves (constantItem stream) Past.Moved s := by
  unfold Action.constantItem
  refine c.bind (c.ofExcept _) fun declared t _ named => ?_
  refine c.bind (c.eat _ _) fun sign u _ assigned => ?_
  refine c.bind (c.constantExpression _) fun rest v _ moved => ?_
  refine c.bind (c.newIdent _ _ _ _) fun i w _ _ => ?_
  refine c.bind (c.declare _) fun _ x _ _ => c.pure ?_
  exact (DeclaredName.passesTerm_read named).passes.trans
    ((Stream.passes_of_skip? assigned rfl).trans moved)

theorem constantDeclaration (stream : Stream) :
    c.Conserves (constantDeclaration stream) Past.Moved s :=
  c.keywordGroup c.constantItem rfl stream

/-! ### Values -/

theorem setGlobal (slot : Nat) (value : Constant) :
    c.Conserves (setGlobal slot value) (fun _ => True) s := by
  unfold Action.setGlobal
  rw [c.get]
  split
  · exact c.write (c.globals s _) (c.pure trivial)
  · exact c.failInternal

theorem fold (target : TypeId) (slot : Nat) (stream : Stream) :
    c.Conserves (fold target slot stream) Rest.Moved s := by
  unfold Action.fold
  refine c.bind (c.constantExpression stream) fun rest t _ moved => ?_
  obtain ⟨⟨value, source⟩, s', h⟩ := rest
  rw [c.get]
  refine c.bind (c.checkCompatible _ _ _) fun _ u _ _ => ?_
  exact c.bind (c.setGlobal slot _) fun _ v _ _ => c.pure moved

theorem widenOnStack (target source : TypeId) :
    c.Conserves (widenOnStack target source) (fun _ => True) s := by
  unfold Action.widenOnStack
  rw [c.get]
  split
  · exact c.bind (c.emit _) fun _ t _ _ => c.pure trivial
  · exact c.pure trivial

theorem runtimeValue (target : TypeId) (stream : Stream) :
    c.Conserves (runtimeValue target stream) Rest.Moved s := by
  unfold Action.runtimeValue
  refine c.bind (c.expression .runtime stream) fun rest t _ moved => ?_
  refine c.bind (c.widenOnStack _ _) fun source u _ _ => ?_
  exact c.bind (c.checkCompatible _ _ _) fun _ v _ _ => c.pure moved

theorem store (target : TypeId) (stream : Stream) :
    c.Conserves (store target stream) Rest.Moved s := by
  unfold Action.store
  refine c.bind (c.runtimeValue target stream) fun rest t _ moved => ?_
  exact c.bind (c.emit _) fun _ u _ _ => c.pure moved

theorem assign (target : TypeId) (slot? : Option Nat) (stream : Stream) :
    c.Conserves (assign target slot? stream) Rest.Moved s := by
  cases slot? with
  | some slot => exact c.fold target slot stream
  | none => exact c.store target stream

theorem inferredValue (stream : Stream) :
    c.Conserves (inferredValue stream) Rest.Moved s := by
  unfold Action.inferredValue
  rw [c.get]
  split
  · exact c.bind (c.constantExpression stream) fun rest t _ moved => c.pure moved
  · exact c.bind (c.expression .runtime stream) fun rest t _ moved => c.pure moved

theorem storeInferred (payload : Payload) (value : TypedValue) :
    c.Conserves (storeInferred payload value) (fun _ => True) s := by
  unfold Action.storeInferred
  split
  · exact c.setGlobal _ _
  · refine c.bind (c.emit _) fun _ t _ _ => ?_
    exact c.bind (c.emit _) fun _ u _ _ => c.pure trivial
  · exact c.failInternal

/-! ### Variables -/

theorem allocate (name : String) (type : TypeId) (span : Span) :
    c.Conserves (Action.allocate name type span) (fun _ => True) s := by
  unfold Action.allocate
  rw [c.get]
  split
  · exact c.write (c.globals s _) (c.pure trivial)
  · split
    · rename_i fits
      obtain ⟨size, _, fits⟩ := Option.bind_eq_some_iff.1 fits
      exact c.write (c.frame s fits) (c.pure trivial)
    · exact c.fail

theorem declareVariable (name : String) (exported : Bool) (type : TypeId) (span : Span) :
    c.Conserves (declareVariable name exported type span) (fun _ => True) s := by
  unfold Action.declareVariable
  refine c.bind (c.allocate name type span) fun payload t _ _ => ?_
  refine c.bind (c.newIdent _ _ _ _) fun i u _ _ => ?_
  exact c.bind (c.declare _) fun _ v _ _ => c.pure trivial

theorem declareVariables (type : TypeId) (names : List DeclaredName) :
    c.Conserves (declareVariables type names) (fun _ => True) s := by
  induction names generalizing s with
  | nil => exact c.failInternal
  | cons declared more ih =>
    rw [Action.declareVariables]
    refine c.bind (c.declareVariable _ _ _ _) fun v t _ _ => ?_
    dsimp only
    split
    · exact c.pure trivial
    · exact ih

theorem prepareStorage (payload : Payload) :
    c.Conserves (prepareStorage payload) (fun _ => True) s := by
  unfold Action.prepareStorage
  split
  · exact c.pure trivial
  · exact c.bind (c.emit _) fun _ t _ _ => c.pure trivial
  · exact c.failInternal

theorem variableItem (stream : Stream) (s : Session) :
    c.Conserves (variableItem stream) Past.Moved s := by
  unfold Action.variableItem
  refine c.bind (c.typedNames (c.types stream) maxVariables) fun past t _ moved => ?_
  refine c.bind (c.declareVariables _ _) fun payload u _ _ => ?_
  dsimp only
  split
  · exact c.pure moved
  · rename_i sign found
    split
    · exact c.fail
    · refine c.bind (c.prepareStorage payload) fun slot? v _ _ => ?_
      refine c.bind (c.assign _ slot? _) fun rest w _ value => c.pure ?_
      exact Stream.Passes.trans moved ((Stream.passes_of_skip? found rfl).trans value)

theorem variableDeclaration (stream : Stream) :
    c.Conserves (variableDeclaration stream) Past.Moved s :=
  c.keywordGroup c.variableItem rfl stream

theorem declareInferred (declared : DeclaredName) (stream : Stream) :
    c.Conserves (declareInferred declared stream) Rest.Moved s := by
  unfold Action.declareInferred
  refine c.bind (c.inferredValue stream) fun rest t _ moved => ?_
  dsimp only
  split
  · exact c.get.2 c.fail
  · refine c.bind (c.declareVariable _ _ _ _) fun v u _ _ => ?_
    exact c.bind (c.storeInferred _ _) fun _ w _ _ => c.pure moved

theorem shortDeclaration (stream : Stream) :
    c.Conserves (shortDeclaration stream) Past.Moved s := by
  unfold Action.shortDeclaration
  refine c.bind (c.ofExcept _) fun declared t _ named => ?_
  refine c.bind (c.eat _ _) fun sign u _ assigned => ?_
  refine c.bind (c.declareInferred _ _) fun rest v _ moved => c.pure ?_
  exact (DeclaredName.passesTerm_read named).passes.trans
    ((Stream.passes_of_skip? assigned rfl).trans moved)

theorem assignment (stream : Stream) : c.Conserves (assignment stream) Past.Moved s := by
  unfold Action.assignment
  refine c.bind (c.reference stream) fun past t _ moved => ?_
  obtain ⟨⟨id, ident⟩, s₁, h₁⟩ := past
  dsimp only
  split
  · exact c.fail
  · refine c.bind (c.emit _) fun _ u _ _ => ?_
    refine c.bind (c.eat _ _) fun sign v _ assigned => ?_
    refine c.bind (c.store _ _) fun rest w _ value => c.pure ?_
    exact Stream.Passes.trans moved ((Stream.passes_of_skip? assigned rfl).trans value)

/-! ### Statements -/

theorem enclosingSignature : c.Conserves enclosingSignature (fun _ => True) s := by
  unfold Action.enclosingSignature
  rw [c.get]
  split
  · exact c.failInternal
  · split
    · exact c.failInternal
    · exact c.pure trivial

theorem returnedValue (signature : Signature) (result : TypeId) (stream : Stream) :
    c.Conserves (returnedValue signature result stream) Rest.Moved s := by
  unfold Action.returnedValue
  split
  · exact c.runtimeValue result stream
  · refine c.bind (c.emit _) fun _ t _ _ => ?_
    exact c.bind (c.emit _) fun _ u _ _ => c.store result stream

theorem optionalValue (signature : Signature) (span : Span) (stream : Stream) :
    c.Conserves (optionalValue signature span stream) Rest.Moved s := by
  unfold Action.optionalValue
  dsimp only
  split
  · split
    · exact c.get.2 c.fail
    · exact c.pure (Stream.Passes.refl [] stream)
  · split
    · exact c.fail
    · exact c.returnedValue signature _ stream

theorem returnStatement (stream : Stream) :
    c.Conserves (returnStatement stream) Past.Moved s := by
  unfold Action.returnStatement
  refine c.bind (c.eat _ _) fun first t _ word => ?_
  refine c.bind c.enclosingSignature fun signature u _ _ => ?_
  refine c.bind (c.optionalValue signature _ first.stream) fun rest v _ moved => ?_
  refine c.bind (c.emit _) fun _ w _ _ => c.pure ?_
  exact (Stream.passes_of_skip? word rfl).trans moved

theorem kept {action : Action (Shorter stream)} (h : c.Conserves action Past.Moved s) :
    c.Conserves (kept action) Rest.Moved s :=
  c.bind h fun _ _ _ moved => c.pure moved

mutual

theorem statement (stream : Stream) (s : Session) :
    c.Conserves (statement stream) Rest.Moved s := by
  rw [Action.statement]
  split
  · exact c.pure (Stream.Passes.refl [] stream)
  · exact c.pure (Stream.Passes.refl [] stream)
  · exact c.kept (c.typeDeclaration stream)
  · exact c.kept (c.constantDeclaration stream)
  · exact c.kept (c.variableDeclaration stream)
  · exact c.fail
  · exact c.kept (block stream s)
  · exact c.kept (c.returnStatement stream)
  · split
    · exact c.kept (c.shortDeclaration stream)
    · exact c.kept (c.assignment stream)
  · exact c.fail
termination_by 4 * stream.size + 2

theorem statements (stream : Stream) (s : Session) :
    c.Conserves (statements stream) Rest.Moved s := by
  rw [Action.statements]
  refine c.bind (statement stream s) fun first t _ moved => ?_
  have within := first.le.2
  dsimp only
  split
  · exact c.pure moved
  · rename_i semicolon found
    have shorter := semicolon.lt.2
    refine c.bind (statements semicolon.stream t) fun rest u _ more => c.pure ?_
    exact Stream.Passes.trans moved ((Stream.passes_of_skip? found rfl).trans more)
termination_by 4 * stream.size + 3

theorem blockBody (stream : Stream) (s : Session) :
    c.Conserves (blockBody stream) Past.Moved s := by
  rw [Action.blockBody]
  refine c.bind (c.eat _ _) fun first t _ opened => ?_
  have shorter := first.lt.2
  refine c.bind (statements first.stream t) fun rest u _ inside => ?_
  refine c.bind (c.eat _ _) fun last v _ closed => c.pure ?_
  exact Stream.passes_brackets [] rfl opened (t := rest.stream) inside closed
termination_by 4 * stream.size

theorem block (stream : Stream) (s : Session) :
    c.Conserves (block stream) Past.Moved s := by
  rw [Action.block]
  refine ends_modify ?_
  have inner := blockBody stream { s with blocks := s.blocks.enter none }
  refine Ends.bind (inner.failing fun _ => c.failInBlock) fun rest t _ moved => ?_
  exact ends_modify (ends_pure ⟨c.leaveBlock moved.1, moved.2⟩)
termination_by 4 * stream.size + 1

end

end Conservation

end Action

end FrontEnd
