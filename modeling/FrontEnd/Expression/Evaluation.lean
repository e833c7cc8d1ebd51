import FrontEnd.Expression.Syntax

/-!
The meaning of expressions. In constant mode an expression folds to a value and nothing is emitted;
in runtime mode code is emitted that leaves the value on the stack. Both modes go through the tree
from the leaves up, the left operand first, and share the rules for types.
-/

namespace FrontEnd

inductive Mode
  | constant
  | runtime
deriving DecidableEq, Repr

structure TypedValue where
  type : TypeId
  /-- The value, where it is known: always in constant mode, and for a bare constant in runtime
  mode. -/
  constant? : Option Constant
deriving Inhabited, Repr

namespace TypeTable

/-- Whether an integer is turned into a real because a real is expected. -/
def widens (t : TypeTable) (target source : TypeId) : Bool :=
  t.isReal target && t.isInteger source

/-- The operators that a type has. -/
def hasOperator (t : TypeTable) (op : Operator) (type : TypeId) : Bool :=
  match op with
  | .add => t.isNumeric type || t.isText type
  | .subtract | .multiply | .divide => t.isNumeric type
  | .modulus => t.isInteger type
  | .and | .or => type = .bool
  | .equal | .notEqual => t.isOrdinal type || t.isReal type || t.isPointer type || t.isText type
  | .less | .lessOrEqual | .greater | .greaterOrEqual =>
    t.isNumeric type || type = .char || t.isText type

def hasUnaryOperator (t : TypeTable) (op : UnaryOperator) (type : TypeId) : Bool :=
  match op with
  | .negate => t.isNumeric type
  | .not => type = .bool

/-- The constant and the type that a constant has where `target` is expected. -/
def widenConstant (t : TypeTable) (target : TypeId) (value : Constant) (type : TypeId) :
    Constant × TypeId :=
  if t.widens target type then
    match value.toReal? with
    | some real => (real, target)
    | none => (value, type)
  else (value, type)

end TypeTable

/-- The type of a result whose left operand has type `left`. -/
def Operator.resultType (op : Operator) (left : TypeId) : TypeId :=
  if op.isComparison then .bool else left

/-- Whether a division by this value is refused before it is carried out. -/
def Operator.dividesByZero (op : Operator) (right : TypedValue) : Bool :=
  (op = .divide || op = .modulus) &&
    match right.constant? with
    | some (.int value) => value = 0
    | _ => false

namespace Action

/-- Fails unless a value of type `source` can be assigned to a place of type `target`. -/
def checkCompatible (target source : TypeId) (span : Span) : Action Unit := do
  let s ← get
  if !s.types.compatible target source then
    fail (.incompatible (s.typeName target) (s.typeName source)) span

/-- Turns the value on top of the stack into a real, where one is expected, and answers its type. -/
def widenOnStack (target source : TypeId) : Action TypeId := do
  if (← get).types.widens target source then
    let _ ← emit (.convert source target)
    return target
  return source

/-- Turns an operand into a real, where one is expected. -/
def widen (mode : Mode) (target : TypeId) (value : TypedValue) : Action TypedValue := do
  if !(← get).types.widens target value.type then return value
  if mode = .runtime then
    let _ ← emit (.convert value.type target)
  return ⟨target, value.constant?.bind Constant.toReal?⟩

/-- A value that is known. -/
def pushConstant (mode : Mode) (value : Constant) (type : TypeId) : Action TypedValue := do
  if mode = .runtime then
    let _ ← emit (.push value)
  return ⟨type, some value⟩

/-- The value of a variable whose address is pushed by `address`. -/
def pushVariable (address : Instruction) (type : TypeId) : Action TypedValue := do
  let _ ← emit address
  let _ ← emit (.load type)
  return ⟨type, none⟩

/-- The type of a literal. Each string literal has a type of its own, with room for a terminator. -/
def literalType (value : Constant) : Action TypeId :=
  match value with
  | .int _ => return .int
  | .real _ => return .real
  | .bool _ => return .bool
  | .char _ => return .char
  | .text _ => do addType (.text ((← read).settings.defaultTextLength + 1))
  | .null => return .null

/-- The value of an identifier; that of a function is its address. -/
def identValue (mode : Mode) (ident : Ident) (span : Span) : Action TypedValue :=
  match ident.kind, ident.payload, mode with
  | .constant, .constant value, _ => pushConstant mode value ident.type
  | .function, .function entry _, _ => pushConstant mode (.int (Int64.ofNat entry)) ident.type
  | .var, _, .constant => fail (.variableInConstant ident.name) span
  | .var, .global slot, .runtime => pushVariable (.globalAddress slot) ident.type
  | .var, .local offset, .runtime => pushVariable (.localAddress offset) ident.type
  | .type, _, _ => fail (.typeInExpression ident.name) span
  | kind, _, _ => failInternal (.mismatchedPayload ident.name kind.name)

/-- Fails unless an operand has the operator. -/
def checkUnary (op : UnaryOperator) (operand : TypeId) (span : Span) : Action Unit := do
  let s ← get
  if !s.types.hasUnaryOperator op operand then
    fail (.operatorNotApplicable op.spelling (s.typeName operand)) span

def foldUnary (op : UnaryOperator) (operand : TypedValue) (span : Span) : Action TypedValue :=
  match operand.constant? with
  | none => failInternal .noConstantOperand
  | some value =>
    match value.foldUnary op with
    | .ok result => return ⟨operand.type, some result⟩
    | .error fault => fail (.folding fault) span

/-- The result of an operator, given the results of its operands. -/
def applyUnary (mode : Mode) (op : UnaryOperator) (operand : TypedValue) (span : Span) :
    Action TypedValue := do
  checkUnary op operand.type span
  match mode with
  | .constant => foldUnary op operand span
  | .runtime =>
    let _ ← emit (.unary op)
    return ⟨operand.type, none⟩

/-- Fails unless the operands have the operator. A division by a known zero is refused. -/
def checkBinary (op : Operator) (left : TypeId) (right : TypedValue) (span : Span) :
    Action Unit := do
  checkCompatible left right.type span
  let s ← get
  if !s.types.hasOperator op left then
    fail (.operatorNotApplicable op.spelling (s.typeName left)) span
  if op.dividesByZero right then
    fail (.folding .divisionByZero) span

def foldBinary (op : Operator) (left right : TypedValue) (span : Span) : Action TypedValue :=
  match left.constant?, right.constant? with
  | some a, some b =>
    match a.foldBinary op b with
    | .ok result => return ⟨op.resultType left.type, some result⟩
    | .error fault => fail (.folding fault) span
  | _, _ => failInternal (.noConstantOperands op.spelling)

/-- The result of an operator, given the results of its operands. The right operand takes the type
of the left one. -/
def applyBinary (mode : Mode) (op : Operator) (left right : TypedValue) (span : Span) :
    Action TypedValue := do
  let right ← widen mode left.type right
  checkBinary op left.type right span
  match mode with
  | .constant => foldBinary op left right span
  | .runtime =>
    let _ ← emit (.binary op)
    return ⟨op.resultType left.type, none⟩

end Action

namespace Expression

/-- Evaluates a tree from the leaves up. -/
def evaluate (mode : Mode) : Expression → Action TypedValue
  | literal value => do Action.pushConstant mode value (← Action.literalType value)
  | name reference => do
    let (_, ident) ← Action.resolve reference
    Action.identValue mode ident reference.span
  | group inner unclosed? => do
    let value ← evaluate mode inner
    match unclosed? with
    | some fault => Action.failAt fault
    | none => return value
  | unary op span operand => do
    let value ← evaluate mode operand
    Action.applyUnary mode op value span
  | binary op span left right => do
    let a ← evaluate mode left
    let b ← evaluate mode right
    Action.applyBinary mode op a b span
  | missing fault => Action.failAt fault

end Expression

namespace Action

/-- Reads an expression and evaluates it. -/
def expression (mode : Mode) (s : Stream) : Action (Rest s TypedValue) := do
  let ⟨tree, s', h⟩ := Expression.read (← get).isModule s
  return ⟨← tree.evaluate mode, s', h⟩

/-- Reads an expression that has to fold to a constant. -/
def constantExpression (s : Stream) : Action (Rest s (Constant × TypeId)) := do
  let ⟨value, s', h⟩ ← expression .constant s
  match value.constant? with
  | some constant => return ⟨(constant, value.type), s', h⟩
  | none => failInternal .noConstantValue

end Action

end FrontEnd
