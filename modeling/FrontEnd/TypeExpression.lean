import FrontEnd.Expression.Evaluation

/-!
Type expressions. Reading one adds the types that it is made of to the type table and answers the
number of the whole. A pointer may point at a name that is not declared yet; such a name is declared
on the spot with a forward type, which its declaration completes later.
-/

namespace FrontEnd

namespace Action

/-- A reference that has to stand for a type. -/
def typeReference (s : Stream) : Action (Past s Ident) := do
  let ⟨(_, ident), s', h⟩ ← reference s
  if ident.kind ≠ .type then fail (.typeNameExpected ident.kind.name ident.name) s.span
  return ⟨ident, s', h⟩

/-- A named type whose declaration has been reached. -/
def namedType (s : Stream) : Action (Past s TypeId) := do
  let ⟨ident, s', h⟩ ← typeReference s
  if (← get).types.isForward ident.type then fail (.forwardByValue ident.name) s.span
  return ⟨ident.type, s', h⟩

/-- An integer constant that is not negative. -/
def length (negative : Cause) (s : Stream) : Action (Rest s Int64) := do
  let ⟨(value, type), s', h⟩ ← constantExpression s
  let session ← get
  if !session.types.compatible .int type then
    fail (.lengthNotInteger (session.typeName type)) s.span
  match value.asInt? with
  | some n => if 0 ≤ n then return ⟨n, s', h⟩ else fail negative s.span
  | none => fail negative s.span

/-- A string type, with the default length if it gives none; both have room for a terminator. -/
def textType (s : Stream) : Action (Past s TypeId) := do
  let ⟨(), s₁, h₁⟩ ← eat .strWord s
  match s₁.skip? .openBracket with
  | some bracket =>
    let ⟨(), s₂, h₂⟩ := bracket.after h₁
    let ⟨capacity, s₃, h₃⟩ := (← length .negativeTextLength s₂).after h₂
    let ⟨(), s₄, h₄⟩ := (← eat .closeBracket s₃).after h₃
    return ⟨← addType (.text capacity), s₄, h₄⟩
  | none =>
    match Word.add? (← read).settings.defaultTextLength 1 with
    | some capacity => return ⟨← addType (.text capacity), s₁, h₁⟩
    | none => fail .typeTooLarge s.span

/-- The length in front of an array's element type; an open array gives none. -/
def arrayLength (s : Stream) : Action (Rest s Int64) :=
  if s.isAt .closeBracket then return .here s openLength
  else length .negativeArrayLength s

/-- Whether the current name is not declared yet and can only be that of a type to come. -/
def isUndeclared (name : Past s String) : Action Bool := do
  let session ← get
  let isMember := name.stream.isAt .dot && session.isModule name.value
  return !isMember && (session.idents.find? session.blocks name.value).isNone

/-- Declares a name that is used before its declaration and answers its forward type. -/
def declareForward (name : String) (exported : Bool) (span : Span) : Action TypeId := do
  let forward ← addType (.forward none)
  let ident ← declareType name exported forward span
  modify fun s => { s with types := s.types.bind forward ident }
  return forward

/-- The type that a pointer to a name points at. -/
def namedTarget (s : Stream) (name : Past s String) : Action (Past s TypeId) := do
  if ← isUndeclared name then
    let ⟨exported, s', h⟩ := name.stream.exportMark.after name.lt
    return ⟨← declareForward name.value exported s.span, s', h⟩
  else
    let ⟨ident, s', h⟩ ← typeReference s
    return ⟨ident.type, s', h⟩

/-- Adds a field to a structure. Fields have distinct names and no export marks of their own. -/
def addStructField (owner type : TypeId) (field : DeclaredName) : Action Unit := do
  if field.exported then fail (.fieldExport field.name) field.span
  let s ← get
  if (s.types.findField? owner field.name).isSome then fail (.duplicateField field.name) field.span
  match s.types.addField owner field.name type with
  | some (_, types) => set { s with types }
  | none => fail .typeTooLarge field.span

/-- Gives an interface a pointer to the object itself, which always fits. -/
def withSelf (owner : TypeId) (s : Session) : Session :=
  match s.types.addField owner selfName .anyPointer with
  | some (_, types) => { s with types }
  | none => s

/-- An interface begins with a pointer to the object itself. -/
def addInterface : Action TypeId := do
  let owner ← addType (.interface [])
  modify (withSelf owner)
  return owner

/-- The signature of an interface method before its own parameters are read. -/
def methodSignature : Action Signature := do
  let s ← get
  return (s.types.addParameter? .empty selfName .anyPointer none).getD .empty

/-- Adds a method to an interface. Its signature remembers the offset of the field. -/
def addMethod (owner : TypeId) (name : String) (signature : Signature) (span : Span) :
    Action Unit := do
  match (← get).types.size? owner with
  | none => fail .typeTooLarge span
  | some offset =>
    let type ← addType (.function { signature with isMethod := true, offsetFromSelf := offset })
    let s ← get
    match s.types.addField owner name type with
    | some (_, types) => set { s with types }
    | none => fail .typeTooLarge span

/-- Adds a parameter to a signature. -/
def addParameter (type : TypeId) (default? : Option Constant) (signature : Signature)
    (parameter : DeclaredName) : Action Signature := do
  if parameter.exported then fail (.parameterExport parameter.name) parameter.span
  match (← get).types.addParameter? signature parameter.name type default? with
  | some signature => return signature
  | none => fail .parametersTooLarge parameter.span

/-- The default value behind a group of parameters. Only a single parameter can have one, and behind
it all parameters have one. -/
def defaultValue (names : Nat) (type : TypeId) (defaults : Nat) (s : Stream) :
    Action (Rest s (Option Constant)) := do
  match s.skip? .assign with
  | some ⟨(), s₁, h₁⟩ =>
    if names ≠ 1 then fail .commonDefault s.span
    let ⟨(value, source), s₂, h₂⟩ := ((← constantExpression s₁).after h₁).rest
    let types := (← get).types
    if types.isStructured source then fail .structuredDefault s₁.span
    let (value, source) := types.widenConstant type value source
    checkCompatible type source s₁.span
    return ⟨some value, s₂, h₂⟩
  | none =>
    if defaults ≠ 0 then fail .defaultsNotLast s.span
    return .here s none

/-- Completes a signature by its result type. A structured result is stored through a hidden
parameter, which points at the caller's room for it. -/
def addResult (signature : Signature) (type : TypeId) (span : Span) : Action Signature := do
  let signature := { signature with results := [type] }
  if !(← get).types.isStructured type then return signature
  let pointer ← addType (.pointer type)
  match (← get).types.addParameter? signature resultName pointer none with
  | some signature => return signature
  | none => fail .parametersTooLarge span

mutual

/-- Reads a type expression. -/
def typeExpression (s : Stream) : Action (Past s TypeId) := do
  match s.kind with
  | .ident _ => namedType s
  | .symbol .caret => pointerType s
  | .symbol .openBracket => arrayType s
  | .symbol .strWord => textType s
  | .symbol .structWord => structType s
  | .symbol .interfaceWord => interfaceType s
  | .symbol .fnWord => functionType s
  | kind => fail (.typeExpected kind.spelling) s.span
termination_by 5 * s.size + 1

def pointerType (s : Stream) : Action (Past s TypeId) := do
  let ⟨(), s₁, h₁⟩ ← eat .caret s
  let ⟨base, s₂, h₂⟩ := (← pointerTarget s₁).after h₁
  return ⟨← addType (.pointer base), s₂, h₂⟩
termination_by 5 * s.size

/-- The type that a pointer points at. -/
def pointerTarget (s : Stream) : Action (Past s TypeId) := do
  match s.name? with
  | some name => namedTarget s name
  | none => typeExpression s
termination_by 5 * s.size + 2

def arrayType (s : Stream) : Action (Past s TypeId) := do
  let ⟨(), s₁, h₁⟩ ← eat .openBracket s
  let ⟨length, s₂, h₂⟩ := (← arrayLength s₁).after h₁
  let ⟨(), s₃, h₃⟩ := (← eat .closeBracket s₂).after h₂
  let ⟨base, s₄, h₄⟩ := (← typeExpression s₃).after h₃
  let type ← addType (.array base length)
  if ((← get).types.size? type).isNone then fail .typeTooLarge s.span
  return ⟨type, s₄, h₄⟩
termination_by 5 * s.size

def structType (s : Stream) : Action (Past s TypeId) := do
  let ⟨(), s₁, h₁⟩ ← eat .structWord s
  let ⟨(), s₂, h₂⟩ := (← eat .openCurly s₁).after h₁
  let owner ← addType (.struct [])
  let ⟨(), s₃, h₃⟩ := (← structFields owner s₂).after h₂
  let ⟨(), s₄, h₄⟩ := (← eat .closeCurly s₃).after h₃
  return ⟨owner, s₄, h₄⟩
termination_by 5 * s.size

/-- Reads groups of fields as long as there is a name. -/
def structFields (owner : TypeId) (s : Stream) : Action (Kept s) := do
  if s.ident?.isNone then return .here s ()
  let ⟨(names, type), s₁, h₁⟩ ← typedNames maxFields s
  names.forM (addStructField owner type)
  let ⟨(), s₂, h₂⟩ := (← separator .closeCurly s₁).after h₁
  return ((← structFields owner s₂).after h₂).rest
termination_by 5 * s.size + 3

def interfaceType (s : Stream) : Action (Past s TypeId) := do
  let ⟨(), s₁, h₁⟩ ← eat .interfaceWord s
  let ⟨(), s₂, h₂⟩ := (← eat .openCurly s₁).after h₁
  let owner ← addInterface
  let ⟨(), s₃, h₃⟩ := (← interfaceMethods owner s₂).after h₂
  let ⟨(), s₄, h₄⟩ := (← eat .closeCurly s₃).after h₃
  return ⟨owner, s₄, h₄⟩
termination_by 5 * s.size

/-- Reads methods as long as there is a name. -/
def interfaceMethods (owner : TypeId) (s : Stream) : Action (Kept s) := do
  match s.name? with
  | none => return .here s ()
  | some ⟨name, s₁, h₁⟩ =>
    if ((← get).types.findField? owner name).isSome then fail (.duplicateField name) s.span
    let ⟨complete, s₂, h₂⟩ := (← signature (← methodSignature) s₁).after h₁
    addMethod owner name complete s.span
    let ⟨(), s₃, h₃⟩ := (← separator .closeCurly s₂).after h₂
    return ((← interfaceMethods owner s₃).after h₃).rest
termination_by 5 * s.size

def functionType (s : Stream) : Action (Past s TypeId) := do
  let ⟨(), s₁, h₁⟩ ← eat .fnWord s
  let ⟨complete, s₂, h₂⟩ := (← signature .empty s₁).after h₁
  return ⟨← addType (.function complete), s₂, h₂⟩
termination_by 5 * s.size

/-- Reads names and their common type. -/
def typedNames (capacity : Nat) (s : Stream) : Action (Past s (List DeclaredName × TypeId)) := do
  let ⟨names, s₁, h₁⟩ ← ofExcept (DeclaredName.readList capacity s)
  let ⟨(), s₂, h₂⟩ := (← eat .colon s₁).after h₁
  let ⟨type, s₃, h₃⟩ := (← typeExpression s₂).after h₂
  return ⟨(names, type), s₃, h₃⟩
termination_by 5 * s.size + 2

/-- Reads parameters and a result type behind the parameters that `start` has already. -/
def signature (start : Signature) (s : Stream) : Action (Past s Signature) := do
  let ⟨(), s₁, h₁⟩ ← eat .openParen s
  let ⟨(listed, defaults), s₂, h₂⟩ := (← optionalParameters start s₁).after h₁
  let ⟨(), s₃, h₃⟩ := (← eat .closeParen s₂).after h₂
  let listed := { listed with defaults }
  match s₃.skip? .colon with
  | some colon =>
    let ⟨(), s₄, h₄⟩ := colon.after h₃
    let ⟨result, s₅, h₅⟩ := (← typeExpression s₄).after h₄
    return ⟨← addResult listed result s₃.span, s₅, h₅⟩
  | none => return ⟨← addResult listed .void s₃.span, s₃, h₃⟩
termination_by 5 * s.size

/-- Reads the parameters of a signature, if it has any of its own. -/
def optionalParameters (start : Signature) (s : Stream) : Action (Rest s (Signature × Nat)) := do
  if s.ident?.isSome then return (← parameterGroups start 0 s).rest
  return .here s (start, 0)
termination_by 5 * s.size + 4

/-- Reads groups of parameters between commas and counts those with default values. -/
def parameterGroups (start : Signature) (defaults : Nat) (s : Stream) :
    Action (Past s (Signature × Nat)) := do
  let ⟨(names, type), s₁, h₁⟩ ← typedNames maxParameters s
  let ⟨default?, s₂, h₂⟩ := (← defaultValue names.length type defaults s₁).after h₁
  let defaults := if default?.isSome then defaults + 1 else defaults
  let extended ← names.foldlM (addParameter type default?) start
  match s₂.skip? .comma with
  | some comma =>
    let ⟨(), s₃, h₃⟩ := comma.after h₂
    return (← parameterGroups extended defaults s₃).after h₃
  | none => return ⟨(extended, defaults), s₂, h₂⟩
termination_by 5 * s.size + 3

end

/-- Reads a receiver: a pointer to a structured type. Answers that type, and a signature with the
receiver as its first parameter. -/
def receiver (s : Stream) : Action (Past s (TypeId × Signature)) := do
  let ⟨(), s₁, h₁⟩ ← eat .openParen s
  let ⟨name, s₂, h₂⟩ := (← eatName s₁).after h₁
  let ⟨(), s₃, h₃⟩ := (← eat .colon s₂).after h₂
  let ⟨type, s₄, h₄⟩ := (← typeExpression s₃).after h₃
  let types := (← get).types
  match (types.pointerBase? type).filter types.isStructured with
  | none => fail .receiverNotPointer s₃.span
  | some base =>
    let started := { Signature.empty with isMethod := true }
    let complete := (types.addParameter? started name type none).getD started
    let ⟨(), s₅, h₅⟩ := (← eat .closeParen s₄).after h₄
    return ⟨(base, complete), s₅, h₅⟩

end Action

end FrontEnd
