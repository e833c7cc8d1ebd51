import FrontEnd.Function

/-!
Imports, modules and whole programs. Every file is read at most once, while its first importer is
being read; a file that is still being read cannot be imported. Imports nest only as deep as the
settings allow, so reading ends whatever the sources answer.
-/

namespace FrontEnd

namespace Action

/-- Reads the file of an import, or says that imports are nested too deep. `load?` reads a file one
level deeper, if there is one. A file that cannot be read is a fault of the import. -/
def loadImport (load? : Option (Path → Action ModuleId)) (path : Path) (span : Span) :
    Action ModuleId := do
  match load? with
  | none => fail (.importsTooDeep (← read).settings.maxImportDepth) span
  | some load =>
    let file := (← get).place.file
    mapError
      (fun d =>
        if d.category = .file && d.scope = path.toText then (⟨d.cause, span⟩ : Fault).inFile file
        else d)
      (load path)

/-- The module that an import literal stands for. -/
def importedModule (load? : Option (Path → Action ModuleId)) (literal : String) (span : Span) :
    Action ModuleId := do
  let s ← get
  let path := Path.ofImport (s.modules.folder s.blocks.module) literal
  match s.modules.findByPath? path.toText with
  | some imported =>
    if s.modules.isUnfinished imported then fail (.cyclicImport path.toText) span
    return imported
  | none => loadImport load? path span

/-- The literal that the current word is, with the stream behind it. -/
def importLiteral? (s : Stream) : Option (Past s String) :=
  match h : s.kind with
  | .text literal =>
    some ⟨literal, s.advance, Stream.advance_behind (by simp [h, TokenKind.symbol?])⟩
  | _ => none

/-- Reads one import. -/
def importItem (load? : Option (Path → Action ModuleId)) (s : Stream) : Action (Shorter s) := do
  match importLiteral? s with
  | none => fail (.importPathExpected s.kind.spelling) s.span
  | some ⟨literal, s₁, h₁⟩ =>
    let importer := (← get).blocks.module
    let imported ← importedModule load? literal s.span
    modify fun t => { t with modules := t.modules.addImport importer imported }
    return ⟨(), s₁, h₁⟩

/-- Reads imports as long as there is a literal. -/
def importItems (load? : Option (Path → Action ModuleId)) (s : Stream) : Action (Kept s) := do
  if (importLiteral? s).isNone then return .here s ()
  let ⟨(), s₁, h₁⟩ ← importItem load? s
  let ⟨(), s₂, h₂⟩ := (← separator .closeParen s₁).after h₁
  return ((← importItems load? s₂).after h₂).rest
termination_by s.size

/-- Reads an import clause: one import, or a group of imports between parentheses. -/
def importClause (load? : Option (Path → Action ModuleId)) (s : Stream) : Action (Shorter s) := do
  let ⟨(), s₁, h₁⟩ ← eat .importWord s
  match s₁.skip? .openParen with
  | none => return (← importItem load? s₁).after h₁
  | some paren =>
    let ⟨(), s₂, h₂⟩ := paren.after h₁
    let ⟨(), s₃, h₃⟩ := (← importItems load? s₂).after h₂
    return (← eat .closeParen s₃).after h₃

/-- Reads an import clause and the semicolon behind it, if there are imports. -/
def optionalImports (load? : Option (Path → Action ModuleId)) (s : Stream) : Action (Kept s) := do
  if s.isAt .importWord then
    let ⟨(), s₁, h₁⟩ ← importClause load? s
    return ((← eat .semicolon s₁).after h₁).rest
  else return .here s ()

/-- Adds the module of a file and goes on as a part of it. -/
def openModule (path : String) : Action ModuleId :=
  modifyGet fun s =>
    let name := Path.stem path
    let (id, modules) := s.modules.add path (Path.folder path) name
    (id, { s with
      names := s.names.add name
      modules := modules.begin id
      blocks := { s.blocks with module := id } })

/-- Reads the words of a module: an import clause, if there is one, and declarations. -/
def moduleBody (load? : Option (Path → Action ModuleId)) (path : String) (s : Stream) :
    Action ModuleId := do
  let id ← openModule path
  let imports ← optionalImports load? s
  let rest ← declarations imports.stream
  atEnd rest.stream
  modify fun t => { t with modules := t.modules.finish id }
  return id

/-- The words of a file. Its names and literals enter the name table. -/
def openFile (path : String) : Action Stream := do
  match (← read).sources.read path with
  | .error message => throw (.ofFile path (.unreadable message))
  | .ok text =>
    match Stream.ofText text with
    | .error fault => throw (fault.inFile path)
    | .ok s =>
      modify fun t => { t with names := t.names.addWords s }
      return s

/-- Reads a file as a module. -/
def moduleFile (load? : Option (Path → Action ModuleId)) (path : Path) : Action ModuleId := do
  let s ← openFile path.toText
  inFile path.toText (moduleBody load? path.toText s)

/-- Reads a file whose imports may be nested `levels` deep. -/
def readModule : Nat → Path → Action ModuleId
  | 0 => moduleFile none
  | levels + 1 => moduleFile (some (readModule levels))

/-- How imports are read where `levels` more levels are allowed. -/
def loader? : Nat → Option (Path → Action ModuleId)
  | 0 => none
  | levels + 1 => some (readModule levels)

/-- How imports are read at the current depth. -/
def currentLoader? : Action (Option (Path → Action ModuleId)) := do
  return loader? ((← read).settings.maxImportDepth - (← get).importDepth)

end Action

end FrontEnd
