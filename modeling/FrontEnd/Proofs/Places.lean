import FrontEnd.Proofs.Invariance.Module
import FrontEnd.Proofs.Scopes

/-!
Readers come back to where they started. Behind a declaration, a statement, a block or an import
the same module, file, function and blocks are open as in front of it, however deep blocks and files
nest inside. A file is left also where reading it fails.
-/

namespace FrontEnd

namespace Session

variable {s t u : Session}

/-- The same module, place and blocks are open, at the same depth of imports. -/
structure SamePlace (s t : Session) : Prop where
  module : t.blocks.module = s.blocks.module
  place : t.place = s.place
  importDepth : t.importDepth = s.importDepth
  openBlocks : t.openBlocks = s.openBlocks

/-- The same module of the same file is being read, at the same depth of imports. -/
structure SameFile (s t : Session) : Prop where
  module : t.blocks.module = s.blocks.module
  file : t.place.file = s.place.file
  importDepth : t.importDepth = s.importDepth

namespace SamePlace

theorem refl (s : Session) : s.SamePlace s := ⟨rfl, rfl, rfl, rfl⟩

theorem trans (h : s.SamePlace t) (h' : t.SamePlace u) : s.SamePlace u where
  module := h'.module.trans h.module
  place := h'.place.trans h.place
  importDepth := h'.importDepth.trans h.importDepth
  openBlocks := h'.openBlocks.trans h.openBlocks

theorem sameFile (h : s.SamePlace t) : s.SameFile t :=
  ⟨h.module, congrArg Place.file h.place, h.importDepth⟩

end SamePlace

theorem SameFile.trans (h : s.SameFile t) (h' : t.SameFile u) : s.SameFile u where
  module := h'.module.trans h.module
  file := h'.file.trans h.file
  importDepth := h'.importDepth.trans h.importDepth

/-- Closing a block, of which there is one, leaves the blocks around it. -/
theorem openBlocks_leave {id : BlockId} {rest : List BlockId} (h : t.openBlocks = id :: rest) :
    t.blocks.leave.stack.map (·.id) = rest := by
  unfold openBlocks at h
  rw [Blocks.leave, List.map_drop, h]
  rfl

end Session

namespace Action

open Session

variable {setup : Setup} {run : List Session}

theorem invariance_samePlace (setup : Setup) (run : List Session) :
    Invariance setup run SameFile SamePlace where
  refl := .refl
  trans := .trans
  failsHere s := (SamePlace.refl s).sameFile
  failsBehind h h' := h.sameFile.trans h'
  code _ _ := ⟨rfl, rfl, rfl, rfl⟩
  idents _ _ := ⟨rfl, rfl, rfl, rfl⟩
  newType _ _ _ := ⟨rfl, rfl, rfl, rfl⟩
  complete _ _ _ _ _ _ := ⟨rfl, rfl, rfl, rfl⟩

theorem conservation_samePlace (setup : Setup) (run : List Session) :
    Conservation setup run SameFile SamePlace where
  toInvariance := invariance_samePlace setup run
  typeExpression stream s := by
    refine (invariance_samePlace setup run).writes
      ((defines_typeExpression stream s).imp fun _ _ passed => passed.passes.inside) ?_
    rintro t _ ⟨types, idents, rfl⟩
    exact ⟨rfl, rfl, rfl, rfl⟩
  names _ _ := ⟨rfl, rfl, rfl, rfl⟩
  globals _ _ := ⟨rfl, rfl, rfl, rfl⟩
  frame s _ _ _ fits := by
    have scope := (Blocks.allocate?_eq_some fits).1
    exact ⟨congrArg Prod.fst scope, rfl, rfl, openBlocks_eq (congrArg Prod.snd scope)⟩
  imports _ _ _ := ⟨rfl, rfl, rfl, rfl⟩
  leaveBlock h := ⟨h.module, h.place, h.importDepth, openBlocks_leave h.openBlocks⟩
  failInBlock h := ⟨h.module, h.file, h.importDepth⟩
  leaveBody {s t} name id h := by
    refine ⟨h.module, ?_, h.importDepth, openBlocks_leave h.openBlocks⟩
    rw [h.place]
  failInBody name id h := ⟨h.module, h.file, h.importDepth⟩
  leaveFile {s t} path names module modules modules' h := by
    refine ⟨rfl, rfl, ?_, h.openBlocks⟩
    exact (congrArg (· - 1) h.importDepth).trans (Nat.add_sub_cancel _ _)
  failInFile {s t} path names module modules h := by
    refine ⟨rfl, rfl, ?_⟩
    exact (congrArg (· - 1) h.importDepth).trans (Nat.add_sub_cancel _ _)

/-- Opening a file changes nothing but the table of names. -/
theorem writes_openFile (path : String) (s : Session) :
    (openFile path).Writes setup (fun t u => ∃ names, u = { t with names }) (fun _ _ => True)
      s := by
  unfold openFile
  rw [writes_read]
  split
  · trivial
  · split
    · trivial
    · exact ⟨⟨_, rfl⟩, trivial⟩

/-- A file is left also where reading it fails. -/
theorem ends_moduleFile (levels : Nat) (path : Path) (s : Session) :
    (moduleFile (loader? levels) path).Ends setup run
      (fun t => s.SameFile t ∧ t.place = s.place) (fun _ t => s.SamePlace t) s := by
  have c := conservation_samePlace setup run
  unfold moduleFile
  have opened : (openFile path.toText).Ends setup run
      (fun t => ∃ names, t = { s with names }) (fun _ t => ∃ names, t = { s with names }) s := by
    refine (writes_openFile path.toText s).ends (T := fun t u => ∃ names, u = { t with names })
      (fun t => ⟨t.names, rfl⟩) ?_ (fun _ _ => id) (fun _ => id) fun _ _ _ => id
    rintro t _ _ ⟨names, rfl⟩ ⟨names', rfl⟩
    exact ⟨names', rfl⟩
  refine Ends.bind (opened.failing ?_) ?_
  · rintro _ ⟨names, rfl⟩
    exact ⟨⟨rfl, rfl, rfl⟩, rfl⟩
  rintro stream _ _ ⟨names, rfl⟩
  unfold inFile
  rw [ends_get]
  refine ends_modify (ends_andFinally ((c.moduleBody (c.loads_loader? levels) _ _ _).mono ?_ ?_))
  · rintro t ⟨names', module, modules, failed⟩
    have left := c.failInFile path.toText names' module modules failed
    exact ⟨⟨left.module, left.file, left.importDepth⟩, rfl⟩
  · rintro _ _ ⟨names', module, modules, u, modules', reached, rfl⟩
    have left := c.leaveFile path.toText names' module modules modules' reached
    exact ⟨left.module, left.place, left.importDepth, left.openBlocks⟩

/-! ### The readers -/

/-- A reader of declarations, statements, blocks or imports. -/
inductive Reader
  | declaration
  | declarations
  | typeDeclaration
  | constantDeclaration
  | variableDeclaration
  | shortDeclaration
  | functionDeclaration
  | statement
  | statements
  | assignment
  | returnStatement
  | block
  | blockBody
  /-- The body of a function that has been declared. -/
  | functionBody (id : IdentId) (ident : Ident) (signature : Signature)
  /-- Imports that may nest `levels` deep. -/
  | importItem (levels : Nat)
  | importClause (levels : Nat)
  | optionalImports (levels : Nat)

/-- What is read, without its value. -/
def Reader.read (stream : Stream) : Reader → Action (Kept stream)
  | declaration => Action.declaration stream
  | declarations => Action.declarations stream
  | typeDeclaration => kept (Action.typeDeclaration stream)
  | constantDeclaration => kept (Action.constantDeclaration stream)
  | variableDeclaration => kept (Action.variableDeclaration stream)
  | shortDeclaration => kept (Action.shortDeclaration stream)
  | functionDeclaration => kept (Action.functionDeclaration stream)
  | statement => Action.statement stream
  | statements => Action.statements stream
  | assignment => kept (Action.assignment stream)
  | returnStatement => kept (Action.returnStatement stream)
  | block => kept (Action.block stream)
  | blockBody => kept (Action.blockBody stream)
  | functionBody id ident signature => kept (Action.functionBody id ident signature stream)
  | importItem levels => kept (Action.importItem (loader? levels) stream)
  | importClause levels => kept (Action.importClause (loader? levels) stream)
  | optionalImports levels => Action.optionalImports (loader? levels) stream

theorem Conservation.reader {E P : Session → Session → Prop} (c : Conservation setup run E P)
    (reader : Reader) (stream : Stream) (s : Session) :
    c.Conserves (reader.read stream) Rest.Moved s := by
  cases reader with
  | declaration => exact c.declaration stream s
  | declarations => exact c.declarations stream s
  | typeDeclaration => exact c.kept (c.typeDeclaration stream)
  | constantDeclaration => exact c.kept (c.constantDeclaration stream)
  | variableDeclaration => exact c.kept (c.variableDeclaration stream)
  | shortDeclaration => exact c.kept (c.shortDeclaration stream)
  | functionDeclaration => exact c.kept (c.functionDeclaration stream)
  | statement => exact c.statement stream s
  | statements => exact c.statements stream s
  | assignment => exact c.kept (c.assignment stream)
  | returnStatement => exact c.kept (c.returnStatement stream)
  | block => exact c.kept (c.block stream s)
  | blockBody => exact c.kept (c.blockBody stream s)
  | functionBody id ident signature => exact c.kept (c.functionBody id ident signature stream)
  | importItem levels =>
    have item := c.importItem (c.loads_loader? levels) stream (s := s)
    exact c.kept (c.imp item fun _ => Past.IsImport.moved)
  | importClause levels => exact c.kept (c.importClause (c.loads_loader? levels) stream)
  | optionalImports levels => exact c.optionalImports (c.loads_loader? levels) stream

/-- Behind whatever a reader has read, the module, the file and the function, the depth of imports
and the open blocks are those in front of it. The words that it has passed are closed in themselves,
and an import passes only its literal. A file that is read as a module leaves everything as it was
around it, and also where that fails, the module, the file and the function and the depth of
imports. -/
theorem readers_come_back (setup : Setup) (s : Session) :
    (∀ (reader : Reader) (stream : Stream),
      match (reader.read stream).run setup s with
      | .ok rest t => s.SamePlace t ∧ Stream.Passes [] stream rest.stream
      | .error _ t => s.SameFile t) ∧
    (∀ (levels : Nat) (stream : Stream),
      match (importItem (loader? levels) stream).run setup s with
      | .ok past _ => past.stream = stream.advance ∧ ∃ literal, stream.kind = .text literal
      | .error .. => True) ∧
    (∀ (levels : Nat) (path : Path),
      match (moduleFile (loader? levels) path).run setup s with
      | .ok _ t => s.SamePlace t
      | .error _ t => s.SameFile t ∧ t.place = s.place) := by
  have c (run : List Session) := conservation_samePlace setup run
  refine ⟨fun reader stream => ?_, fun levels stream => ?_, fun levels path => ?_⟩
  · have read := ((c _).reader reader stream s).of_run
    cases result : (reader.read stream).run setup s with
    | ok rest t =>
      rw [result] at read
      exact read
    | error e t =>
      rw [result] at read
      exact read
  · have read := ((c _).importItem ((c _).loads_loader? levels) stream (s := s)).of_run
    cases result : (importItem (loader? levels) stream).run setup s with
    | ok past t =>
      rw [result] at read
      exact read.2
    | error e t => trivial
  · have ends (run : List Session) : (moduleFile (loader? levels) path).Ends setup run _ _ s :=
      ends_moduleFile levels path s
    have read := (ends _).of_run
    cases result : (moduleFile (loader? levels) path).run setup s with
    | ok module t => simpa only [result] using read
    | error e t => simpa only [result] using read

end Action

end FrontEnd
