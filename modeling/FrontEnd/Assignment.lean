import FrontEnd.TypeExpression

/-!
Giving values to variables. At module scope an initial value is folded and kept with the variable;
inside a function code is emitted that computes and stores it.
-/

namespace FrontEnd

namespace Action

/-- Folds an initial value and keeps it in a global variable of type `target`. -/
def fold (target : TypeId) (slot : Nat) (s : Stream) : Action (Kept s) := do
  let ⟨(value, source), s', h⟩ ← constantExpression s
  let (value, source) := (← get).types.widenConstant target value source
  checkCompatible target source s.span
  setGlobal slot value
  return ⟨(), s', h⟩

/-- Emits code for a value that is turned into type `target`. -/
def runtimeValue (target : TypeId) (s : Stream) : Action (Kept s) := do
  let ⟨value, s', h⟩ ← expression .runtime s
  let source ← widenOnStack target value.type
  checkCompatible target source s.span
  return ⟨(), s', h⟩

/-- Emits code that stores a value at the address on top of the stack. -/
def store (target : TypeId) (s : Stream) : Action (Kept s) := do
  let rest ← runtimeValue target s
  let _ ← emit (.store target)
  return rest

/-- Gives a value to a variable of type `target`: folded for a global variable that is being
declared, by code for any other, whose address has been pushed. -/
def assign (target : TypeId) (slot? : Option Nat) (s : Stream) : Action (Kept s) :=
  match slot? with
  | some slot => fold target slot s
  | none => store target s

/-- The value of a variable that takes its type from it, as far as it is known. -/
def inferredValue (s : Stream) : Action (Rest s TypedValue) := do
  if (← get).blocks.atModuleScope then
    let ⟨(value, type), s', h⟩ ← constantExpression s
    return ⟨⟨type, some value⟩, s', h⟩
  else
    let ⟨value, s', h⟩ ← expression .runtime s
    return ⟨⟨value.type, none⟩, s', h⟩

/-- Stores the value that has been computed for a new variable. -/
def storeInferred (payload : Payload) (value : TypedValue) : Action Unit :=
  match payload, value.constant? with
  | .global slot, some constant => setGlobal slot constant
  | .local offset, none => do
    let _ ← emit (.localAddress offset)
    let _ ← emit (.storeSwapped value.type)
  | _, _ => failInternal .wrongStorage

/-- Declares a variable whose type is that of its value. The value is computed before the variable
exists, so it cannot refer to it. -/
def declareInferred (declared : DeclaredName) (s : Stream) : Action (Kept s) := do
  let ⟨value, s', h⟩ ← inferredValue s
  if value.type = .void || value.type = .null then
    fail (.notInferable declared.name (← typeName value.type)) s.span
  let (_, payload) ← declareVariable declared.name declared.exported value.type declared.span
  storeInferred payload value
  return ⟨(), s', h⟩

/-- The instruction that pushes the address of a variable. -/
def address? (ident : Ident) : Option Instruction :=
  match ident.kind, ident.payload with
  | .var, .global slot => some (.globalAddress slot)
  | .var, .local offset => some (.localAddress offset)
  | _, _ => none

/-- A reference to a variable, an equals sign and a value. -/
def assignment (s : Stream) : Action (Shorter s) := do
  let ⟨(_, ident), s₁, h₁⟩ ← reference s
  match address? ident with
  | none => fail (.variableExpected ident.kind.name ident.name) s.span
  | some address =>
    let _ ← emit address
    let ⟨(), s₂, h₂⟩ := (← eat .assign s₁).after h₁
    return (← store ident.type s₂).after h₂

end Action

end FrontEnd
