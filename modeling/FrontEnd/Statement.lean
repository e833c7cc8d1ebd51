import FrontEnd.Declaration

/-!
Statements and blocks. A block opens a scope of its own; statements are separated by semicolons.
-/

namespace FrontEnd

namespace Action

/-- The signature of the function whose body is being read. -/
def enclosingSignature : Action Signature := do
  let s ← get
  match s.blocks.function? with
  | none => failInternal .returnOutsideFunction
  | some id =>
    match (s.idents.get? id).bind fun ident => s.types.signature? ident.type with
    | none => failInternal .noFunctionType
    | some signature => return signature

/-- The hidden parameter through which a structured result is stored. -/
def resultParameter? (signature : Signature) : Option Parameter :=
  signature.parameters.getLast?.filter (·.name = resultName)

/-- The value behind `return`. A structured one is stored into the room that the caller provides. -/
def returnedValue (signature : Signature) (result : TypeId) (s : Stream) : Action (Kept s) := do
  match resultParameter? signature with
  | none => runtimeValue result s
  | some parameter =>
    let _ ← emit (.localAddress parameter.offset)
    let _ ← emit (.load parameter.type)
    store result s

/-- Whether a word ends a statement, so that nothing is returned in front of it. -/
def endsReturn (s : Stream) : Bool :=
  s.isAt .semicolon || s.isAt .closeCurly

/-- What stands behind `return` at `span`: a value if the function returns one, and nothing
otherwise. -/
def optionalValue (signature : Signature) (span : Span) (s : Stream) : Action (Kept s) := do
  let result := signature.result?.getD .void
  if endsReturn s then
    if result ≠ .void then fail (.resultMissing (← typeName result)) span
    return .here s ()
  else
    if result = .void then fail .resultUnexpected span
    returnedValue signature result s

def returnStatement (s : Stream) : Action (Shorter s) := do
  let ⟨(), s₁, h₁⟩ ← eat .returnWord s
  let signature ← enclosingSignature
  let rest ← optionalValue signature s.span s₁
  let _ ← emit (.leave signature.parametersSize)
  return rest.after h₁

/-- Whether a statement that starts with a name declares it. -/
def startsShortDeclaration (s : Stream) : Bool :=
  match s.next?.bind TokenKind.symbol? with
  | some .colonAssign | some (.operator .multiply) => true
  | _ => false

/-- Forgets that something was read. -/
def kept {s : Stream} (action : Action (Shorter s)) : Action (Kept s) :=
  return (← action).rest

mutual

/-- Reads a statement, which may be empty. Functions are declared at module scope only. -/
def statement (s : Stream) : Action (Kept s) := do
  match s.kind with
  | .symbol .semicolon | .symbol .closeCurly => return .here s ()
  | .symbol .typeWord => kept (typeDeclaration s)
  | .symbol .constWord => kept (constantDeclaration s)
  | .symbol .varWord => kept (variableDeclaration s)
  | .symbol .fnWord => fail .nestedFunction s.span
  | .symbol .openCurly => kept (block s)
  | .symbol .returnWord => kept (returnStatement s)
  | .ident _ =>
    if startsShortDeclaration s then kept (shortDeclaration s) else kept (assignment s)
  | kind => fail (.statementExpected kind.spelling) s.span
termination_by 4 * s.size + 2

def statements (s : Stream) : Action (Kept s) := do
  let ⟨(), s₁, h₁⟩ ← statement s
  match s₁.skip? .semicolon with
  | none => return ⟨(), s₁, h₁⟩
  | some semicolon =>
    let ⟨(), s₂, h₂⟩ := semicolon.within h₁
    return ((← statements s₂).after h₂).rest
termination_by 4 * s.size + 3

/-- Statements between curly brackets. -/
def blockBody (s : Stream) : Action (Shorter s) := do
  let ⟨(), s₁, h₁⟩ ← eat .openCurly s
  let ⟨(), s₂, h₂⟩ := (← statements s₁).after h₁
  return (← eat .closeCurly s₂).after h₂
termination_by 4 * s.size

/-- A block with a scope of its own. -/
def block (s : Stream) : Action (Shorter s) := do
  enter none
  let rest ← blockBody s
  leave
  return rest
termination_by 4 * s.size + 1

end

end Action

end FrontEnd
