import FrontEnd.Proofs.Invariance.Declaration

/-!
What functions, imports, modules and whole programs keep.
-/

namespace FrontEnd.Action

variable {α β : Type} {setup : Setup} {run : List Session} {E P : Session → Session → Prop}
  {s : Session} {stream : Stream}

theorem importLiteral?_eq_some {past : Past stream String}
    (h : importLiteral? stream = some past) :
    stream.kind = .text past.value ∧ past.stream = stream.advance := by
  unfold importLiteral? at h
  split at h
  · rename_i literal kind
    cases h
    exact ⟨kind, rfl⟩
  · cases h

/-- The words of one import: the current literal alone. -/
def Past.IsImport (p : Shorter stream) : Prop :=
  p.stream = stream.advance ∧ ∃ literal, stream.kind = .text literal

theorem Past.IsImport.moved {p : Shorter stream} (h : Past.IsImport p) : p.Moved := by
  obtain ⟨stops, literal, kind⟩ := h
  unfold Past.Moved
  rw [stops]
  exact ⟨_, Stream.shows_of_kind kind nofun, .single rfl⟩

namespace Conservation

variable (c : Conservation setup run E P)

include c

/-! ### Functions -/

theorem prepareEntry (ident : Ident) (signature : Signature) :
    c.Conserves (prepareEntry ident signature) (fun _ => True) s := by
  unfold Action.prepareEntry
  rw [c.read, c.get]
  split
  · unfold Action.defineEntry
    simp only [fail_bind]
    split
    · exact c.read.2 c.fail
    · rw [c.get]
      split
      · exact c.failInternal
      · exact c.write (c.code s _) (c.pure trivial)
  · exact c.pure trivial

theorem declareParameters (parameters : List Parameter) (span : Span) :
    c.Conserves
      (parameters.forM fun p => discard (Action.declareVariable p.name false p.type span))
      (fun _ => True) s := by
  induction parameters generalizing s with
  | nil => exact c.pure trivial
  | cons p parameters ih =>
    refine c.bind (Q := fun _ => True) ?_ fun _ _ _ _ => ih
    exact c.bind (c.declareVariable p.name false p.type span) fun _ t _ _ => c.pure trivial

theorem functionBlock (signature : Signature) (span : Span) (stream : Stream) :
    c.Conserves (functionBlock signature span stream) Past.Moved s := by
  unfold Action.functionBlock
  exact c.bind (c.declareParameters _ span) fun _ t _ _ => c.blockBody stream t

theorem functionBody (id : IdentId) (ident : Ident) (signature : Signature) (stream : Stream) :
    c.Conserves (functionBody id ident signature stream) Past.Moved s := by
  unfold Action.functionBody
  refine c.bind (c.prepareEntry ident signature) fun _ t _ _ => ?_
  rw [c.get]
  refine ends_modify (ends_modify ?_)
  have fails {u : Session} := c.failInBody (s := t) (t := u) ident.name id
  have inner := c.functionBlock signature ident.span stream
    (s := { t with
      place := { t.place with function? := some ident.name }, blocks := t.blocks.enter (some id) })
  refine Ends.bind (inner.failing fun _ => fails) fun rest u _ moved => ?_
  have last := c.after moved.1 (c.emit (.leave signature.parametersSize))
  refine Ends.bind (last.failing fun _ => fails) fun _ v _ reached => ?_
  exact ends_modify (ends_modify (ends_pure ⟨c.leaveBody ident.name id reached.1, moved.2⟩))

theorem receiver (stream : Stream) : c.Conserves (receiver stream) Past.Moved s := by
  unfold Action.receiver
  refine c.bind (c.eat _ _) fun first t _ opened => ?_
  refine c.bind (c.eatName _) fun name u _ named => ?_
  refine c.bind (c.eat _ _) fun second v _ colon => ?_
  refine c.bind (c.typeExpression _ v) fun past w _ moved => ?_
  dsimp only
  rw [c.get]
  split
  · exact c.fail
  · refine c.bind (c.eat _ _) fun last x _ closed => c.pure ?_
    refine Stream.passes_brackets [] rfl opened (t := past.stream) ?_ closed
    exact (Stream.passes_of_name? [] named).trans
      ((Stream.passes_of_skip? colon rfl).trans moved)

theorem optionalReceiver (stream : Stream) :
    c.Conserves (optionalReceiver stream) Rest.Moved s := by
  unfold Action.optionalReceiver
  split
  · exact c.bind (c.receiver stream) fun past t _ moved => c.pure moved
  · exact c.pure (Stream.Passes.refl [] stream)

theorem checkMethodName (base : TypeId) (name : String) (span : Span) :
    c.Conserves (checkMethodName base name span) (fun _ => True) s := by
  unfold Action.checkMethodName
  simp only [fail_bind]
  rw [c.get]
  split
  · exact c.fail
  · split
    · exact c.fail
    · exact c.pure trivial

theorem functionName (receiver? : Option TypeId) (stream : Stream) :
    c.Conserves (functionName receiver? stream) Past.Moved s := by
  unfold Action.functionName
  refine c.bind (c.eatName stream) fun name t _ named => ?_
  have moved : name.Moved := Stream.passes_of_name? [] named
  split
  · exact c.bind (c.checkMethodName _ _ _) fun _ u _ _ => c.pure moved
  · exact c.pure moved

theorem declareFunction (name : String) (exported : Bool) (receiver? : Option TypeId)
    (signature : Signature) (hasBody : Bool) (span : Span) :
    c.Conserves (declareFunction name exported receiver? signature hasBody span)
      (fun _ => True) s := by
  unfold Action.declareFunction
  refine c.bind (c.addType rfl) fun type t _ _ => ?_
  rw [c.get]
  refine c.bind (c.newIdent _ _ _ _) fun i u _ _ => ?_
  exact c.bind (c.declare _) fun _ v _ _ => c.pure trivial

theorem functionDeclaration (stream : Stream) :
    c.Conserves (functionDeclaration stream) Past.Moved s := by
  unfold Action.functionDeclaration
  rw [c.get]
  simp only [fail_bind]
  split
  · exact c.fail
  refine c.bind (c.eat _ _) fun first t _ word => ?_
  refine c.bind (c.optionalReceiver _) fun received u _ moved => ?_
  refine c.bind (c.functionName _ _) fun name v _ named => ?_
  refine c.bind (c.signature (c.types _) _) fun past w _ listed => ?_
  refine c.bind (c.declareFunction _ _ _ _ _ _) fun declared x _ _ => ?_
  have head := (Stream.passes_of_skip? word rfl).trans (Stream.Passes.trans moved
    (Stream.Passes.trans named ((Stream.passes_exportMark name.stream rfl).trans listed)))
  obtain ⟨id, ident⟩ := declared
  dsimp only
  split
  · refine c.bind (c.functionBody id ident _ _) fun last y _ body => c.pure ?_
    exact head.trans body
  · exact c.bind (c.emit _) fun _ y _ _ => c.pure head

theorem declaration (stream : Stream) (s : Session) :
    c.Conserves (declaration stream) Rest.Moved s := by
  unfold Action.declaration
  split
  · exact c.kept (c.typeDeclaration stream)
  · exact c.kept (c.constantDeclaration stream)
  · exact c.kept (c.variableDeclaration stream)
  · exact c.kept (c.functionDeclaration stream)
  · exact c.kept (c.shortDeclaration stream)
  · rw [c.get]
    split
    · exact c.pure (Stream.Passes.refl [] stream)
    · exact c.fail

theorem declarations (stream : Stream) (s : Session) :
    c.Conserves (declarations stream) Rest.Moved s := by
  rw [Action.declarations]
  refine c.bind (c.declaration stream s) fun first t _ moved => ?_
  have within := first.le.2
  dsimp only
  split
  · exact c.pure moved
  · rename_i semicolon found
    have shorter := semicolon.lt.2
    refine c.bind (declarations semicolon.stream t) fun rest u _ more => c.pure ?_
    exact Stream.Passes.trans moved ((Stream.passes_of_skip? found rfl).trans more)
termination_by stream.size

/-! ### Imports -/

section Imports

variable {load? : Option (Path → Action ModuleId)}

/-- The files of imports keep the relations. -/
def Loads (c : Conservation setup run E P) (load? : Option (Path → Action ModuleId)) : Prop :=
  ∀ load ∈ load?, ∀ path s, c.Conserves (load path) (fun _ => True) s

theorem loadImport (hl : c.Loads load?) (path : Path) (span : Span) :
    c.Conserves (loadImport load? path span) (fun _ => True) s := by
  unfold Action.loadImport
  split
  · exact c.read.2 c.fail
  · rw [c.get]
    exact ends_mapError (hl _ rfl path s)

theorem importedModule (hl : c.Loads load?) (literal : String) (span : Span) :
    c.Conserves (importedModule load? literal span) (fun _ => True) s := by
  unfold Action.importedModule
  rw [c.get]
  simp only [fail_bind]
  split
  · split
    · exact c.fail
    · exact c.pure trivial
  · exact c.loadImport hl _ span

theorem importItem (hl : c.Loads load?) (stream : Stream) :
    c.Conserves (importItem load? stream) Past.IsImport s := by
  unfold Action.importItem
  split
  · exact c.fail
  · rename_i literal s₁ h₁ found
    obtain ⟨kind, stops⟩ := importLiteral?_eq_some found
    rw [c.get]
    refine c.bind (c.importedModule hl literal _) fun imported t _ _ => ?_
    exact c.modify (c.imports t _ imported) (c.pure ⟨stops, literal, kind⟩)

theorem importItems (hl : c.Loads load?) (stream : Stream) (s : Session) :
    c.Conserves (importItems load? stream) Rest.Moved s := by
  rw [Action.importItems]
  split
  · exact c.pure (Stream.Passes.refl [] stream)
  · refine c.bind (c.importItem hl stream) fun first t _ single => ?_
    have shorter := first.lt.2
    refine c.bind (c.separator _ first.stream) fun rest u _ between => ?_
    have within := rest.le.2
    refine c.bind (importItems hl rest.stream u) fun last v _ more => c.pure ?_
    exact Stream.Passes.trans single.moved (Stream.Passes.trans between more)
termination_by stream.size

theorem importClause (hl : c.Loads load?) (stream : Stream) :
    c.Conserves (importClause load? stream) Past.Moved s := by
  unfold Action.importClause
  refine c.bind (c.eat _ _) fun first t _ word => ?_
  have word : Stream.Passes [] stream first.stream := Stream.passes_of_skip? word rfl
  dsimp only
  split
  · exact c.bind (c.importItem hl _) fun last u _ single => c.pure (word.trans single.moved)
  · rename_i paren opened
    refine c.bind (c.importItems hl _ t) fun rest u _ inside => ?_
    refine c.bind (c.eat _ _) fun last v _ closed => c.pure ?_
    exact word.trans (Stream.passes_brackets [] rfl opened (t := rest.stream) inside closed)

theorem optionalImports (hl : c.Loads load?) (stream : Stream) :
    c.Conserves (optionalImports load? stream) Rest.Moved s := by
  unfold Action.optionalImports
  split
  · refine c.bind (c.importClause hl stream) fun first t _ moved => ?_
    refine c.bind (c.eat _ _) fun last u _ closed => c.pure ?_
    exact Stream.Passes.trans moved (Stream.passes_of_skip? closed rfl)
  · exact c.pure (Stream.Passes.refl [] stream)

/-! ### Modules -/

theorem openFile (path : String) : c.Conserves (openFile path) (fun _ => True) s := by
  unfold Action.openFile
  rw [c.read]
  split
  · exact c.throw
  · split
    · exact c.throw
    · exact c.modify (c.names s _) (c.pure trivial)

/-- The words of a module are read in its own file. -/
theorem moduleBody (hl : c.Loads load?) (path : String) (stream : Stream) (s : Session) :
    (moduleBody load? path stream).Ends setup run
      (fun t => ∃ names module modules, E (s.opened path names module modules) t)
      (fun _ t => ∃ names module modules u modules',
        P (s.opened path names module modules) u ∧ t = { u with modules := modules' })
      (s.enterFile path) := by
  unfold Action.moduleBody openModule
  refine ends_modifyGet ?_
  dsimp only
  refine Ends.bind ((c.optionalImports hl stream).failing fun _ he => ⟨_, _, _, he⟩) ?_
  intro imports t _ imported
  have declared := c.after imported.1 (c.declarations imports.stream t)
  refine Ends.bind (declared.failing fun _ he => ⟨_, _, _, he⟩) fun rest u _ read => ?_
  have ended := c.after read.1 (c.ofExcept (rest.stream.check .endOfFile) (s := u))
  refine Ends.bind (ended.failing fun _ he => ⟨_, _, _, he⟩) fun _ v _ stopped => ?_
  exact ends_modify (ends_pure ⟨_, _, _, v, _, stopped.1, rfl⟩)

/-- What was open in front of a file is open again behind it. -/
theorem moduleFile (hl : c.Loads load?) (path : Path) (s : Session) :
    c.Conserves (moduleFile load? path) (fun _ => True) s := by
  unfold Action.moduleFile
  refine c.bind (c.openFile path.toText) fun stream t _ _ => ?_
  unfold inFile
  rw [c.get]
  refine ends_modify (ends_andFinally ((c.moduleBody hl path.toText stream t).mono ?_ ?_))
  · rintro u ⟨names, module, modules, he⟩
    exact c.failInFile path.toText names module modules he
  · rintro _ _ ⟨names, module, modules, u, modules', reached, rfl⟩
    exact ⟨c.leaveFile path.toText names module modules modules' reached, trivial⟩

theorem loads_readModule (levels : Nat) (path : Path) (s : Session) :
    c.Conserves (readModule levels path) (fun _ => True) s := by
  induction levels generalizing path s with
  | zero =>
    rw [readModule]
    exact c.moduleFile (fun _ hl => absurd hl (Option.not_mem_none _)) path s
  | succ levels ih =>
    rw [readModule]
    refine c.moduleFile ?_ path s
    rintro load ⟨⟩
    exact ih

theorem loads_loader? (levels : Nat) : c.Loads (loader? levels) := by
  cases levels with
  | zero => exact fun _ hl => absurd hl (Option.not_mem_none _)
  | succ levels =>
    rintro load ⟨⟩
    exact c.loads_readModule levels

end Imports

/-! ### Programs -/

theorem linkPrototype (ident : Ident) (slot : Nat) :
    c.Conserves (linkPrototype ident slot) (fun _ => True) s := by
  unfold Action.linkPrototype
  rw [c.get]
  dsimp only
  split
  · exact c.failInternal
  · rw [c.read]
    split
    · exact c.throw
    · split
      · exact c.throw
      · unfold linkCall
        refine c.bind (c.emit _) fun stub t _ _ => ?_
        refine c.bind (c.emit _) fun _ u _ _ => ?_
        rw [c.get]
        split
        · exact c.write (c.code u _) (c.pure trivial)
        · exact c.failInternal

theorem linkPrototypes : c.Conserves linkPrototypes (fun _ => True) s := by
  unfold Action.linkPrototypes
  rw [c.get]
  generalize s.idents.toList = idents
  induction idents generalizing s with
  | nil => exact c.pure trivial
  | cons ident idents ih =>
    refine c.bind (Q := fun _ => True) ?_ fun _ t _ _ => ih
    dsimp only
    split
    · exact c.linkPrototype ident _
    · exact c.pure trivial

theorem program (root : String) (s : Session) :
    c.Conserves (program root) (fun _ => True) s := by
  unfold Action.program
  refine c.bind (c.emit .nop) fun _ t _ _ => ?_
  rw [c.read]
  refine c.bind (c.loads_readModule _ _ t) fun id u _ _ => ?_
  split
  · exact c.failInternal
  · refine c.bind c.checkForwards fun _ v _ _ => ?_
    refine c.bind c.linkPrototypes fun _ w _ _ => ?_
    rw [c.get]
    split
    · exact c.throw
    · exact c.pure trivial

end Conservation

end FrontEnd.Action
