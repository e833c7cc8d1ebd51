import FrontEnd.Statement

/-!
Functions, and the declarations of a module. A function without a body is a prototype: an
instruction is reserved for the jump to the host function of its name.
-/

namespace FrontEnd

namespace Action

/-- Whether an identifier is the function that the program starts with. -/
def isEntry (settings : Settings) (s : Session) (ident : Ident) : Bool :=
  ident.name = settings.entryFunction && ident.receiver?.isNone && s.blocks.module = .root

/-- The first instruction of a program jumps to its entry function, which takes and returns
nothing. -/
def defineEntry (ident : Ident) (signature : Signature) : Action Unit := do
  if !(signature.parameters.isEmpty && signature.result? = some .void) then
    fail (.illegalEntry (← read).settings.entryFunction) ident.span
  let s ← get
  match s.code.patch? 0 (.goto s.code.size) with
  | none => failInternal .noEntryStub
  | some code => set { s with code := { code with entryDefined := true } }

/-- Lets a program start with a function, if that is its entry function. -/
def prepareEntry (ident : Ident) (signature : Signature) : Action Unit := do
  if isEntry (← read).settings (← get) ident then defineEntry ident signature

/-- What a function's block declares and does. Its parameters are the first variables of its
frame. -/
def functionBlock (signature : Signature) (span : Span) (s : Stream) : Action (Shorter s) := do
  signature.parameters.forM fun p => discard (declareVariable p.name false p.type span)
  blockBody s

/-- Reads the body of a function. -/
def functionBody (id : IdentId) (ident : Ident) (signature : Signature) (s : Stream) :
    Action (Shorter s) := do
  prepareEntry ident signature
  let outer := (← get).place.function?
  modify fun t => { t with place := { t.place with function? := some ident.name } }
  enter (some id)
  let rest ← functionBlock signature ident.span s
  let _ ← emit (.leave signature.parametersSize)
  leave
  modify fun t => { t with place := { t.place with function? := outer } }
  return rest

/-- Methods and fields share one set of names, and a method is declared once in a module. -/
def checkMethodName (base : TypeId) (name : String) (span : Span) : Action Unit := do
  let s ← get
  if (s.types.findField? base name).isSome then
    let owner :=
      match s.types.kind base with
      | .interface _ => "Interface"
      | _ => "Structure"
    fail (.methodNamedLikeField owner name) span
  if (s.idents.findMethod? s.blocks.module base name).isSome then
    fail (.duplicateMethod name) span

/-- The receiver in front of a function's name, if there is one. -/
def optionalReceiver (s : Stream) : Action (Rest s (Option TypeId × Signature)) := do
  if s.isAt .openParen then
    let ⟨(base, signature), s', h⟩ := (← receiver s).rest
    return ⟨(some base, signature), s', h⟩
  else return .here s (none, .empty)

/-- The name of a function and its span. -/
def functionName (receiver? : Option TypeId) (s : Stream) : Action (Past s String) := do
  let name ← eatName s
  if let some base := receiver? then checkMethodName base name.value s.span
  return name

/-- Declares a function whose code starts here. Without a body it reserves the next instruction. -/
def declareFunction (name : String) (exported : Bool) (receiver? : Option TypeId)
    (signature : Signature) (hasBody : Bool) (span : Span) : Action (IdentId × Ident) := do
  let type ← addType (.function signature)
  let entry := (← get).code.size
  let payload := Payload.function entry (if hasBody then none else some entry)
  let ident := { ← newIdent name .function type span with exported, receiver?, payload }
  return (← declare ident, ident)

def functionDeclaration (s : Stream) : Action (Shorter s) := do
  if !(← get).blocks.atModuleScope then fail .nestedFunction s.span
  let ⟨(), s₁, h₁⟩ ← eat .fnWord s
  let ⟨(receiver?, started), s₂, h₂⟩ := (← optionalReceiver s₁).after h₁
  let ⟨name, s₃, h₃⟩ := (← functionName receiver? s₂).after h₂
  let ⟨exported, s₄, h₄⟩ := s₃.exportMark.after h₃
  let ⟨complete, s₅, h₅⟩ := (← signature started s₄).after h₄
  let hasBody := s₅.isAt .openCurly
  let (id, ident) ← declareFunction name exported receiver? complete hasBody s₂.span
  if hasBody then
    return (← functionBody id ident complete s₅).after h₅
  else
    let _ ← emit .nop
    return ⟨(), s₅, h₅⟩

/-- Reads a declaration. At module scope the end of the file counts as an empty one. -/
def declaration (s : Stream) : Action (Kept s) := do
  match s.kind with
  | .symbol .typeWord => kept (typeDeclaration s)
  | .symbol .constWord => kept (constantDeclaration s)
  | .symbol .varWord => kept (variableDeclaration s)
  | .symbol .fnWord => kept (functionDeclaration s)
  | .ident _ => kept (shortDeclaration s)
  | kind =>
    if kind.symbol? = some .endOfFile && (← get).blocks.atModuleScope then
      return .here s ()
    else fail (.declarationExpected kind.spelling) s.span

/-- Reads declarations between semicolons. -/
def declarations (s : Stream) : Action (Kept s) := do
  let ⟨(), s₁, h₁⟩ ← declaration s
  match s₁.skip? .semicolon with
  | none => return ⟨(), s₁, h₁⟩
  | some semicolon =>
    let ⟨(), s₂, h₂⟩ := semicolon.within h₁
    return ((← declarations s₂).after h₂).rest
termination_by s.size

end Action

end FrontEnd
