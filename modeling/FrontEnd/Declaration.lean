import FrontEnd.Assignment

/-!
Declarations of types, constants and variables. Several of one kind can stand in a group between
parentheses.
-/

namespace FrontEnd

namespace Action

/-- Reads items as long as there is a name. -/
def groupItems (item : (s : Stream) → Action (Shorter s)) (s : Stream) : Action (Kept s) := do
  if s.ident?.isNone then return .here s ()
  let ⟨(), s₁, h₁⟩ ← item s
  let ⟨(), s₂, h₂⟩ := (← separator .closeParen s₁).after h₁
  return ((← groupItems item s₂).after h₂).rest
termination_by s.size

/-- One item, or a group of items between parentheses. -/
def group (item : (s : Stream) → Action (Shorter s)) (s : Stream) : Action (Shorter s) := do
  match s.skip? .openParen with
  | none => item s
  | some ⟨(), s₁, h₁⟩ =>
    let ⟨(), s₂, h₂⟩ := (← groupItems item s₁).after h₁
    return (← eat .closeParen s₂).after h₂

/-- A keyword and the items behind it. -/
def keywordGroup (keyword : Symbol) (item : (s : Stream) → Action (Shorter s)) (s : Stream) :
    Action (Shorter s) := do
  let ⟨(), s₁, h₁⟩ ← eat keyword s
  return (← group item s₁).after h₁

/-! ### Types -/

/-- Fails if a name that was used through a pointer has not been declared. The fault lies in the
file that used the name. -/
def checkForwards : Action Unit := do
  let s ← get
  match s.types.firstForward? with
  | none => return
  | some ident? =>
    match ident?.bind s.idents.get? with
    | none => failInternal .unnamedForward
    | some ident =>
      let fault : Fault := ⟨.unresolvedForward ident.name, ident.span⟩
      throw (fault.inFile (s.modules.path ident.module))

def typeItem (s : Stream) : Action (Shorter s) := do
  let ⟨declared, s₁, h₁⟩ ← ofExcept (DeclaredName.read s)
  let ⟨(), s₂, h₂⟩ := (← eat .assign s₁).after h₁
  let ⟨type, s₃, h₃⟩ := (← typeExpression s₂).after h₂
  let _ ← declareType declared.name declared.exported type declared.span
  return ⟨(), s₃, h₃⟩

/-- Whether another declaration of types follows. -/
def runGoesOn (s : Stream) : Bool :=
  s.isAt .semicolon && s.next?.bind TokenKind.symbol? = some .typeWord

/-- Declares types. Names used before their declaration have to be declared by the end of a run of
type declarations. -/
def typeDeclaration (s : Stream) : Action (Shorter s) := do
  let rest ← keywordGroup .typeWord typeItem s
  if !runGoesOn rest.stream then checkForwards
  return rest

/-! ### Constants -/

def constantItem (s : Stream) : Action (Shorter s) := do
  let ⟨declared, s₁, h₁⟩ ← ofExcept (DeclaredName.read s)
  let ⟨(), s₂, h₂⟩ := (← eat .assign s₁).after h₁
  let ⟨(value, type), s₃, h₃⟩ := (← constantExpression s₂).after h₂
  let ident ← newIdent declared.name .constant type declared.span
  let _ ← declare { ident with exported := declared.exported, payload := .constant value }
  return ⟨(), s₃, h₃⟩

def constantDeclaration (s : Stream) : Action (Shorter s) :=
  keywordGroup .constWord constantItem s

/-! ### Variables -/

/-- Declares variables of one type and answers the storage of the last one. -/
def declareVariables (type : TypeId) : List DeclaredName → Action Payload
  | [] => failInternal .noStorage
  | declared :: more => do
    let (_, payload) ← declareVariable declared.name declared.exported type declared.span
    if more.isEmpty then return payload
    declareVariables type more

/-- Where the initial value of a new variable goes: into its slot, or to the address that is pushed
here. -/
def prepareStorage (payload : Payload) : Action (Option Nat) :=
  match payload with
  | .global slot => return some slot
  | .local offset => do
    let _ ← emit (.localAddress offset)
    return none
  | _ => failInternal .noStorage

def variableItem (s : Stream) : Action (Shorter s) := do
  let ⟨(names, type), s₁, h₁⟩ ← typedNames maxVariables s
  let payload ← declareVariables type names
  match s₁.skip? .assign with
  | none => return ⟨(), s₁, h₁⟩
  | some sign =>
    if names.length ≠ 1 then fail .severalInitialized s₁.span
    let ⟨(), s₂, h₂⟩ := sign.after h₁
    return (← assign type (← prepareStorage payload) s₂).after h₂

def variableDeclaration (s : Stream) : Action (Shorter s) :=
  keywordGroup .varWord variableItem s

/-- A name, the sign `:=` and a value. -/
def shortDeclaration (s : Stream) : Action (Shorter s) := do
  let ⟨declared, s₁, h₁⟩ ← ofExcept (DeclaredName.read s)
  let ⟨(), s₂, h₂⟩ := (← eat .colonAssign s₁).after h₁
  return (← declareInferred declared s₂).after h₂

end Action

end FrontEnd
