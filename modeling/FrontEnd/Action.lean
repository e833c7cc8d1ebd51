import FrontEnd.Session

/-!
Steps of the front end. A step looks at the setup and at the session, writes sessions, and ends with
a value or with a diagnostic; the session that was written last remains even then. Steps are trees,
so that not only their ends but all sessions on the way can be spoken of.
-/

namespace FrontEnd

/-- A step of the front end. -/
inductive Action (α : Type) : Type
  | done (value : α)
  | failed (d : Diagnostic)
  /-- Goes on as the setup and the session ask for. -/
  | look (next : Setup → Session → Action α)
  | write (session : Session) (next : Action α)

namespace Action

/-- Goes on behind `action` with its value. -/
protected def bind {α β : Type} (action : Action α) (next : α → Action β) : Action β :=
  match action with
  | done value => next value
  | failed d => failed d
  | look f => look fun setup session => (f setup session).bind next
  | write session action => write session (action.bind next)

instance : Monad Action where
  pure := done
  bind := Action.bind

instance : MonadReaderOf Setup Action where
  read := look fun setup _ => done setup

instance : MonadStateOf Session Action where
  get := look fun _ session => done session
  set session := write session (done ⟨⟩)
  modifyGet f := look fun _ session => write (f session).2 (done (f session).1)

/-- Goes on behind `action` where it fails. -/
def handle {α : Type} (action : Action α) (next : Diagnostic → Action α) : Action α :=
  match action with
  | done value => done value
  | failed d => next d
  | look f => look fun setup session => (f setup session).handle next
  | write session action => write session (action.handle next)

instance : MonadExceptOf Diagnostic Action where
  throw := failed
  tryCatch := handle

/-- Runs a step and answers what it left behind in either case. -/
def run {α : Type} (action : Action α) (setup : Setup) (session : Session) :
    EStateM.Result Diagnostic Session α :=
  match action with
  | done value => .ok value session
  | failed d => .error d session
  | look f => (f setup session).run setup session
  | write session action => action.run setup session

/-- The sessions that a step writes, in order. -/
def trace {α : Type} (action : Action α) (setup : Setup) (session : Session) : List Session :=
  match action with
  | done _ => []
  | failed _ => []
  | look f => (f setup session).trace setup session
  | write session action => session :: action.trace setup session

/-- Fails at a place of the file being read. -/
def failAt {α : Type} (fault : Fault) : Action α := do
  throw (fault.inFile (← get).place.file)

def fail {α : Type} (cause : Cause) (span : Span) : Action α :=
  failAt ⟨cause, span⟩

def failInternal {α : Type} (cause : InternalCause) : Action α :=
  throw (.ofInternal cause)

/-- The value of a reading step that needs no session. -/
def ofExcept {α : Type} (result : Except Fault α) : Action α :=
  match result with
  | .ok value => pure value
  | .error fault => failAt fault

/-- Runs `action`; what it fails with is changed by `f`. -/
def mapError {α : Type} (f : Diagnostic → Diagnostic) (action : Action α) : Action α :=
  action.handle fun d => failed (f d)

/-- Runs `action` and then, whether it succeeded or not, changes the session by `f`. -/
def andFinally {α : Type} (f : Session → Session) (action : Action α) : Action α :=
  match action with
  | done value => look fun _ session => write (f session) (done value)
  | failed d => look fun _ session => write (f session) (failed d)
  | look g => look fun setup session => (g setup session).andFinally f
  | write session action => write session (action.andFinally f)

/-! ### Types and code -/

def addType (kind : TypeKind) : Action TypeId :=
  modifyGet fun s =>
    let (id, types) := s.types.add kind
    (id, { s with types })

def typeName (type : TypeId) : Action String :=
  return (← get).typeName type

/-- Appends an instruction and answers its address. -/
def emit (i : Instruction) : Action Nat :=
  modifyGet fun s => (s.code.size, { s with code := s.code.emit i })

/-! ### Identifiers -/

/-- An identifier of the current scope, without a payload. -/
def newIdent (name : String) (kind : IdentKind) (type : TypeId) (span : Span) : Action Ident := do
  let s ← get
  return { name, kind, exported := false, type, payload := .none, module := s.blocks.module,
           block := s.blocks.current, receiver? := none, span }

/-- Declares an identifier. Only module scope can be exported, and a name is declared once in each
scope. -/
def declare (ident : Ident) : Action IdentId := do
  if ident.exported && ident.block ≠ .moduleScope then
    fail (.localExport ident.name) ident.span
  match (← get).idents.insert? ident with
  | some (id, idents) =>
    modify ({ · with idents })
    return id
  | none => fail (.duplicateName ident.name) ident.span

/-- The forward type that a name of the current scope stands for. -/
def forwardOf? (s : Session) (name : String) : Option (IdentId × TypeId) := do
  let id ← s.idents.findInScope? s.blocks.module s.blocks.current name
  let ident ← s.idents.get? id
  if ident.kind = .type && s.types.isForward ident.type then some (id, ident.type) else none

/-- Declares a type. A name that was used before through a pointer is completed in place. -/
def declareType (name : String) (exported : Bool) (type : TypeId) (span : Span) :
    Action IdentId := do
  let s ← get
  match (if s.types.isForward type then none else forwardOf? s name) with
  | some (id, forward) =>
    set { s with
      types := s.types.complete forward type
      idents := s.idents.modify id fun i => { i with exported := i.exported || exported, span } }
    return id
  | none =>
    let ident ← newIdent name .type type span
    declare { ident with exported }

/-- Room for a variable: a slot at module scope, a place in the function's frame otherwise. -/
def allocate (name : String) (type : TypeId) (span : Span) : Action Payload := do
  let s ← get
  if s.blocks.atModuleScope then
    set { s with globals := s.globals.push ⟨name, type, none⟩ }
    return .global s.globals.size
  else
    match (s.types.size? type).bind s.blocks.allocate? with
    | some (offset, blocks) =>
      set { s with blocks }
      return .local offset
    | none => fail (.localTooLarge name) span

def declareVariable (name : String) (exported : Bool) (type : TypeId) (span : Span) :
    Action (IdentId × Payload) := do
  let payload ← allocate name type span
  let ident ← newIdent name .var type span
  let id ← declare { ident with exported, payload }
  return (id, payload)

def setGlobal (slot : Nat) (value : Constant) : Action Unit := do
  let s ← get
  if slot < s.globals.size then
    set { s with globals := s.globals.modify slot fun g => { g with value? := some value } }
  else failInternal (.noGlobal slot)

/-! ### Blocks -/

def enter (function? : Option IdentId) : Action Unit :=
  modify fun s => { s with blocks := s.blocks.enter function? }

def leave : Action Unit :=
  modify fun s => { s with blocks := s.blocks.leave }

/-! ### Files -/

/-- Runs `action` inside another file and comes back, also if `action` fails. -/
def inFile {α : Type} (path : String) (action : Action α) : Action α := do
  let outer := (← get).frame
  modify (·.enterFile path)
  andFinally (·.leaveFile outer) action

end Action

end FrontEnd
