import FrontEnd.Proofs.Yields
import FrontEnd.Function

/-!
Which readers call which while the declarations of a file are read, and from which word and session
on. A reader passes words before it comes to be called again.
-/

namespace FrontEnd

namespace Action

/-- What is declared behind a keyword, alone or in a group. -/
inductive Item
  | type
  | constant
  | var
deriving DecidableEq, Repr

def Item.keyword : Item → Symbol
  | type => .typeWord
  | constant => .constWord
  | var => .varWord

def Item.read : Item → (stream : Stream) → Action (Shorter stream)
  | type => typeItem
  | constant => constantItem
  | var => variableItem

/-- What a reader within a file reads. -/
inductive Nonterminal
  | declarations
  | declaration
  | group (item : Item)
  | items (item : Item)
  | item (item : Item)
  | shortDeclaration
  | functionDeclaration
  | receiver
  | functionBody (id : IdentId) (ident : Ident) (signature : Signature)
  | statements
  | statement
  | block
  | blockBody
  | returnStatement
  | assignment
  | typeExpression
  | pointerType
  | arrayType
  | textType
  | structType
  | structFields (owner : TypeId)
  | interfaceType
  | interfaceMethods (owner : TypeId)
  | functionType
  | typedNames (capacity : Nat)
  | names (capacity : Nat)
  | signature (start : Signature)
  | parameterGroups (start : Signature) (defaults : Nat)
  | expression (mode : Mode)
  | above (lowest : Nat)
  | operand
  | operators (lowest : Nat) (left : Expression)

/-- A reader at work: what it reads, and the word and the session that it starts from. -/
structure Reading where
  nonterminal : Nonterminal
  stream : Stream
  session : Session

/-- The sessions that a reader writes. Names and the trees of expressions are read without writing
any. -/
def Nonterminal.trace (setup : Setup) (stream : Stream) (s : Session) : Nonterminal → List Session
  | declarations => (Action.declarations stream).trace setup s
  | declaration => (Action.declaration stream).trace setup s
  | group kind => (Action.group kind.read stream).trace setup s
  | items kind => (Action.groupItems kind.read stream).trace setup s
  | item kind => (kind.read stream).trace setup s
  | shortDeclaration => (Action.shortDeclaration stream).trace setup s
  | functionDeclaration => (Action.functionDeclaration stream).trace setup s
  | receiver => (Action.receiver stream).trace setup s
  | functionBody id ident type => (Action.functionBody id ident type stream).trace setup s
  | statements => (Action.statements stream).trace setup s
  | statement => (Action.statement stream).trace setup s
  | block => (Action.block stream).trace setup s
  | blockBody => (Action.blockBody stream).trace setup s
  | returnStatement => (Action.returnStatement stream).trace setup s
  | assignment => (Action.assignment stream).trace setup s
  | typeExpression => (Action.typeExpression stream).trace setup s
  | pointerType => (Action.pointerType stream).trace setup s
  | arrayType => (Action.arrayType stream).trace setup s
  | textType => (Action.textType stream).trace setup s
  | structType => (Action.structType stream).trace setup s
  | structFields owner => (Action.structFields owner stream).trace setup s
  | interfaceType => (Action.interfaceType stream).trace setup s
  | interfaceMethods owner => (Action.interfaceMethods owner stream).trace setup s
  | functionType => (Action.functionType stream).trace setup s
  | typedNames capacity => (Action.typedNames capacity stream).trace setup s
  | signature before => (Action.signature before stream).trace setup s
  | parameterGroups start defaults => (Action.parameterGroups start defaults stream).trace setup s
  | expression mode => (Action.expression mode stream).trace setup s
  | names _ | above _ | operand | operators .. => []

/-- How initial values are computed: those of global variables are folded. -/
def modeOf (isGlobal : Bool) : Mode := if isGlobal then .constant else .runtime

namespace Reading

/-! ### Calls

Each case of these relations is a place where a reader calls another one. Its hypotheses say how the
words and the steps in front of that place have been passed. -/

/-- Which readers a declaration that is being read calls. -/
inductive CallsInDeclaration (setup : Setup) : Reading → Reading → Prop
  | firstDeclaration {s : Session} {stream : Stream} :
    CallsInDeclaration setup ⟨.declarations, stream, s⟩ ⟨.declaration, stream, s⟩
  | nextDeclarations {s t : Session} {stream : Stream} {first : Kept stream}
    {semicolon : Shorter first.stream} (read : (declaration stream).Yields setup s first t)
    (found : first.stream.skip? .semicolon = some semicolon) :
    CallsInDeclaration setup ⟨.declarations, stream, s⟩ ⟨.declarations, semicolon.stream, t⟩
  | declaredGroup {s : Session} {stream : Stream} {item : Item} {first : Shorter stream}
    (word : stream.skip? item.keyword = some first) :
    CallsInDeclaration setup ⟨.declaration, stream, s⟩ ⟨.group item, first.stream, s⟩
  | declaredFunction {s : Session} {stream : Stream} (word : stream.kind = .symbol .fnWord) :
    CallsInDeclaration setup ⟨.declaration, stream, s⟩ ⟨.functionDeclaration, stream, s⟩
  | declaredName {s : Session} {stream : Stream} {name : String}
    (word : stream.kind = .ident name) :
    CallsInDeclaration setup ⟨.declaration, stream, s⟩ ⟨.shortDeclaration, stream, s⟩
  | groupItem {s : Session} {stream : Stream} {item : Item}
    (single : stream.skip? .openParen = none) :
    CallsInDeclaration setup ⟨.group item, stream, s⟩ ⟨.item item, stream, s⟩
  | groupItems {s : Session} {stream : Stream} {item : Item} {paren : Shorter stream}
    (opened : stream.skip? .openParen = some paren) :
    CallsInDeclaration setup ⟨.group item, stream, s⟩ ⟨.items item, paren.stream, s⟩
  | firstItem {s : Session} {stream : Stream} {item : Item} (named : stream.ident?.isNone = false) :
    CallsInDeclaration setup ⟨.items item, stream, s⟩ ⟨.item item, stream, s⟩
  | nextItems {s t u : Session} {stream : Stream} {item : Item} {first : Shorter stream}
    {rest : Kept first.stream} (named : stream.ident?.isNone = false)
    (read : (item.read stream).Yields setup s first t)
    (between : (separator .closeParen first.stream).Yields setup t rest u) :
    CallsInDeclaration setup ⟨.items item, stream, s⟩ ⟨.items item, rest.stream, u⟩
  | namedType {s : Session} {stream : Stream} {declared : Past stream DeclaredName}
    {sign : Shorter declared.stream} (named : DeclaredName.read stream = .ok declared)
    (assigned : declared.stream.skip? .assign = some sign) :
    CallsInDeclaration setup ⟨.item .type, stream, s⟩ ⟨.typeExpression, sign.stream, s⟩
  | constantValue {s : Session} {stream : Stream} {declared : Past stream DeclaredName}
    {sign : Shorter declared.stream} (named : DeclaredName.read stream = .ok declared)
    (assigned : declared.stream.skip? .assign = some sign) :
    CallsInDeclaration setup ⟨.item .constant, stream, s⟩ ⟨.expression .constant, sign.stream, s⟩
  | variableNames {s : Session} {stream : Stream} :
    CallsInDeclaration setup ⟨.item .var, stream, s⟩ ⟨.typedNames maxVariables, stream, s⟩
  | initialValue {s t u v : Session} {stream : Stream}
    {past : Past stream (List DeclaredName × TypeId)} {sign : Shorter past.stream}
    {payload : Payload} {slot? : Option Nat}
    (named : (typedNames maxVariables stream).Yields setup s past t)
    (declared : (declareVariables past.value.2 past.value.1).Yields setup t payload u)
    (assigned : past.stream.skip? .assign = some sign)
    (prepared : (prepareStorage payload).Yields setup u slot? v) :
    CallsInDeclaration setup ⟨.item .var, stream, s⟩
      ⟨.expression (modeOf slot?.isSome), sign.stream, v⟩
  | inferredValue {s : Session} {stream : Stream} {declared : Past stream DeclaredName}
    {sign : Shorter declared.stream} (named : DeclaredName.read stream = .ok declared)
    (assigned : declared.stream.skip? .colonAssign = some sign) :
    CallsInDeclaration setup ⟨.shortDeclaration, stream, s⟩
      ⟨.expression (modeOf s.blocks.atModuleScope), sign.stream, s⟩

/-- Which readers a function that is being read calls. -/
inductive CallsInFunction (setup : Setup) : Reading → Reading → Prop
  | receiver {s : Session} {stream : Stream} {first : Shorter stream}
    (word : stream.skip? .fnWord = some first) (opened : first.stream.isAt .openParen = true) :
    CallsInFunction setup ⟨.functionDeclaration, stream, s⟩ ⟨.receiver, first.stream, s⟩
  | receiverType {s : Session} {stream : Stream} {first : Shorter stream}
    {name : Past first.stream String} {colon : Shorter name.stream}
    (opened : stream.skip? .openParen = some first) (named : first.stream.name? = some name)
    (typed : name.stream.skip? .colon = some colon) :
    CallsInFunction setup ⟨.receiver, stream, s⟩ ⟨.typeExpression, colon.stream, s⟩
  | functionSignature {s t u : Session} {stream : Stream} {first : Shorter stream}
    {head : Rest first.stream (Option TypeId × Signature)} {name : Past head.stream String}
    (word : stream.skip? .fnWord = some first)
    (received : (optionalReceiver first.stream).Yields setup s head t)
    (named : (functionName head.value.1 head.stream).Yields setup t name u) :
    CallsInFunction setup ⟨.functionDeclaration, stream, s⟩
      ⟨.signature head.value.2, name.stream.exportMark.stream, u⟩
  | functionBody {s t u v w : Session} {stream : Stream} {first : Shorter stream}
    {head : Rest first.stream (Option TypeId × Signature)} {name : Past head.stream String}
    {past : Past name.stream.exportMark.stream Signature} {id : IdentId} {ident : Ident}
    (word : stream.skip? .fnWord = some first)
    (received : (optionalReceiver first.stream).Yields setup s head t)
    (named : (functionName head.value.1 head.stream).Yields setup t name u)
    (read : (signature head.value.2 name.stream.exportMark.stream).Yields setup u past v)
    (declared : (declareFunction name.value name.stream.exportMark.value head.value.1 past.value
      true head.stream.span).Yields setup v (id, ident) w) :
    CallsInFunction setup ⟨.functionDeclaration, stream, s⟩
      ⟨.functionBody id ident past.value, past.stream, w⟩
  | functionBlock {s t u : Session} {stream : Stream} {id : IdentId} {ident : Ident}
    {signature : Signature} (prepared : (prepareEntry ident signature).Yields setup s () t)
    (declared : (signature.parameters.forM fun p =>
      discard (declareVariable p.name false p.type ident.span)).Yields setup
        { t with
          place := { t.place with function? := some ident.name }
          blocks := t.blocks.enter (some id) } ⟨⟩ u) :
    CallsInFunction setup ⟨.functionBody id ident signature, stream, s⟩ ⟨.blockBody, stream, u⟩

/-- Which readers a statement that is being read calls. -/
inductive CallsInStatement (setup : Setup) : Reading → Reading → Prop
  | firstStatement {s : Session} {stream : Stream} :
    CallsInStatement setup ⟨.statements, stream, s⟩ ⟨.statement, stream, s⟩
  | nextStatements {s t : Session} {stream : Stream} {first : Kept stream}
    {semicolon : Shorter first.stream} (read : (statement stream).Yields setup s first t)
    (found : first.stream.skip? .semicolon = some semicolon) :
    CallsInStatement setup ⟨.statements, stream, s⟩ ⟨.statements, semicolon.stream, t⟩
  | statedGroup {s : Session} {stream : Stream} {item : Item} {first : Shorter stream}
    (word : stream.skip? item.keyword = some first) :
    CallsInStatement setup ⟨.statement, stream, s⟩ ⟨.group item, first.stream, s⟩
  | statedBlock {s : Session} {stream : Stream} (word : stream.kind = .symbol .openCurly) :
    CallsInStatement setup ⟨.statement, stream, s⟩ ⟨.block, stream, s⟩
  | statedReturn {s : Session} {stream : Stream} (word : stream.kind = .symbol .returnWord) :
    CallsInStatement setup ⟨.statement, stream, s⟩ ⟨.returnStatement, stream, s⟩
  | statedName {s : Session} {stream : Stream} (starts : startsShortDeclaration stream = true) :
    CallsInStatement setup ⟨.statement, stream, s⟩ ⟨.shortDeclaration, stream, s⟩
  | statedAssignment {s : Session} {stream : Stream}
    (assigns : startsShortDeclaration stream = false) :
    CallsInStatement setup ⟨.statement, stream, s⟩ ⟨.assignment, stream, s⟩
  | blockBody {s : Session} {stream : Stream} :
    CallsInStatement setup ⟨.block, stream, s⟩
      ⟨.blockBody, stream, { s with blocks := s.blocks.enter none }⟩
  | blockStatements {s : Session} {stream : Stream} {first : Shorter stream}
    (opened : stream.skip? .openCurly = some first) :
    CallsInStatement setup ⟨.blockBody, stream, s⟩ ⟨.statements, first.stream, s⟩
  | returnedValue {s t : Session} {stream : Stream} {first : Shorter stream} {signature : Signature}
    (word : stream.skip? .returnWord = some first)
    (inside : enclosingSignature.Yields setup s signature t)
    (plain : resultParameter? signature = none) :
    CallsInStatement setup ⟨.returnStatement, stream, s⟩ ⟨.expression .runtime, first.stream, t⟩
  | returnedStructure {s t u v : Session} {stream : Stream} {first : Shorter stream}
    {signature : Signature} {parameter : Parameter} {a b : Nat}
    (word : stream.skip? .returnWord = some first)
    (inside : enclosingSignature.Yields setup s signature t)
    (hidden : resultParameter? signature = some parameter)
    (pushed : (emit (.localAddress parameter.offset)).Yields setup t a u)
    (loaded : (emit (.load parameter.type)).Yields setup u b v) :
    CallsInStatement setup ⟨.returnStatement, stream, s⟩ ⟨.expression .runtime, first.stream, v⟩
  | assignedValue {s t u : Session} {stream : Stream} {past : Past stream (IdentId × Ident)}
    {sign : Shorter past.stream} {address : Instruction} {a : Nat}
    (referred : (reference stream).Yields setup s past t)
    (stored : address? past.value.2 = some address) (pushed : (emit address).Yields setup t a u)
    (assigned : past.stream.skip? .assign = some sign) :
    CallsInStatement setup ⟨.assignment, stream, s⟩ ⟨.expression .runtime, sign.stream, u⟩

/-- Which readers a type expression that is being read calls. -/
inductive CallsInType (setup : Setup) : Reading → Reading → Prop
  | pointerType {s : Session} {stream : Stream} (word : stream.kind = .symbol .caret) :
    CallsInType setup ⟨.typeExpression, stream, s⟩ ⟨.pointerType, stream, s⟩
  | arrayType {s : Session} {stream : Stream} (word : stream.kind = .symbol .openBracket) :
    CallsInType setup ⟨.typeExpression, stream, s⟩ ⟨.arrayType, stream, s⟩
  | textType {s : Session} {stream : Stream} (word : stream.kind = .symbol .strWord) :
    CallsInType setup ⟨.typeExpression, stream, s⟩ ⟨.textType, stream, s⟩
  | structType {s : Session} {stream : Stream} (word : stream.kind = .symbol .structWord) :
    CallsInType setup ⟨.typeExpression, stream, s⟩ ⟨.structType, stream, s⟩
  | interfaceType {s : Session} {stream : Stream} (word : stream.kind = .symbol .interfaceWord) :
    CallsInType setup ⟨.typeExpression, stream, s⟩ ⟨.interfaceType, stream, s⟩
  | functionType {s : Session} {stream : Stream} (word : stream.kind = .symbol .fnWord) :
    CallsInType setup ⟨.typeExpression, stream, s⟩ ⟨.functionType, stream, s⟩
  | pointerTarget {s : Session} {stream : Stream} {first : Shorter stream}
    (caret : stream.skip? .caret = some first) (unnamed : first.stream.name? = none) :
    CallsInType setup ⟨.pointerType, stream, s⟩ ⟨.typeExpression, first.stream, s⟩
  | arrayLength {s : Session} {stream : Stream} {first : Shorter stream}
    (opened : stream.skip? .openBracket = some first)
    (given : first.stream.isAt .closeBracket = false) :
    CallsInType setup ⟨.arrayType, stream, s⟩ ⟨.expression .constant, first.stream, s⟩
  | arrayElement {s t : Session} {stream : Stream} {first : Shorter stream}
    {rest : Rest first.stream Int64} {last : Shorter rest.stream}
    (opened : stream.skip? .openBracket = some first)
    (measured : (arrayLength first.stream).Yields setup s rest t)
    (closed : rest.stream.skip? .closeBracket = some last) :
    CallsInType setup ⟨.arrayType, stream, s⟩ ⟨.typeExpression, last.stream, t⟩
  | textLength {s : Session} {stream : Stream} {first : Shorter stream}
    {bracket : Shorter first.stream} (word : stream.skip? .strWord = some first)
    (opened : first.stream.skip? .openBracket = some bracket) :
    CallsInType setup ⟨.textType, stream, s⟩ ⟨.expression .constant, bracket.stream, s⟩
  | structFields {s t : Session} {stream : Stream} {first : Shorter stream}
    {second : Shorter first.stream} {owner : TypeId}
    (word : stream.skip? .structWord = some first)
    (opened : first.stream.skip? .openCurly = some second)
    (added : (addType (.struct [])).Yields setup s owner t) :
    CallsInType setup ⟨.structType, stream, s⟩ ⟨.structFields owner, second.stream, t⟩
  | fieldNames {s : Session} {stream : Stream} {owner : TypeId}
    (named : stream.ident?.isNone = false) :
    CallsInType setup ⟨.structFields owner, stream, s⟩ ⟨.typedNames maxFields, stream, s⟩
  | nextFields {s t u v : Session} {stream : Stream} {owner : TypeId}
    {past : Past stream (List DeclaredName × TypeId)} {rest : Kept past.stream}
    (named : stream.ident?.isNone = false)
    (read : (typedNames maxFields stream).Yields setup s past t)
    (added : (past.value.1.forM (addStructField owner past.value.2)).Yields setup t ⟨⟩ u)
    (between : (separator .closeCurly past.stream).Yields setup u rest v) :
    CallsInType setup ⟨.structFields owner, stream, s⟩ ⟨.structFields owner, rest.stream, v⟩
  | interfaceMethods {s t : Session} {stream : Stream} {first : Shorter stream}
    {second : Shorter first.stream} {owner : TypeId}
    (word : stream.skip? .interfaceWord = some first)
    (opened : first.stream.skip? .openCurly = some second)
    (added : addInterface.Yields setup s owner t) :
    CallsInType setup ⟨.interfaceType, stream, s⟩ ⟨.interfaceMethods owner, second.stream, t⟩
  | methodSignature {s : Session} {stream : Stream} {owner : TypeId} {name : Past stream String}
    {start : Signature} (named : stream.name? = some name)
    (started : methodSignature.Yields setup s start s) :
    CallsInType setup ⟨.interfaceMethods owner, stream, s⟩ ⟨.signature start, name.stream, s⟩
  | nextMethods {s t u v : Session} {stream : Stream} {owner : TypeId} {name : Past stream String}
    {start : Signature} {past : Past name.stream Signature} {rest : Kept past.stream}
    (named : stream.name? = some name) (started : methodSignature.Yields setup s start s)
    (read : (signature start name.stream).Yields setup s past t)
    (added : (addMethod owner name.value past.value stream.span).Yields setup t () u)
    (between : (separator .closeCurly past.stream).Yields setup u rest v) :
    CallsInType setup ⟨.interfaceMethods owner, stream, s⟩ ⟨.interfaceMethods owner, rest.stream, v⟩
  | typeSignature {s : Session} {stream : Stream} {first : Shorter stream}
    (word : stream.skip? .fnWord = some first) :
    CallsInType setup ⟨.functionType, stream, s⟩ ⟨.signature .empty, first.stream, s⟩
  | listedNames {s : Session} {stream : Stream} {capacity : Nat} :
    CallsInType setup ⟨.typedNames capacity, stream, s⟩ ⟨.names capacity, stream, s⟩
  | nextNames {s : Session} {stream : Stream} {room : Nat} {first : Past stream DeclaredName}
    {comma : Shorter first.stream} (read : DeclaredName.read stream = .ok first)
    (found : first.stream.skip? .comma = some comma) :
    CallsInType setup ⟨.names (room + 1), stream, s⟩ ⟨.names room, comma.stream, s⟩
  | commonType {s : Session} {stream : Stream} {capacity : Nat}
    {names : Past stream (List DeclaredName)} {colon : Shorter names.stream}
    (listed : DeclaredName.readList capacity stream = .ok names)
    (typed : names.stream.skip? .colon = some colon) :
    CallsInType setup ⟨.typedNames capacity, stream, s⟩ ⟨.typeExpression, colon.stream, s⟩
  | parameters {s : Session} {stream : Stream} {start : Signature} {first : Shorter stream}
    (opened : stream.skip? .openParen = some first) (named : first.stream.ident?.isSome = true) :
    CallsInType setup ⟨.signature start, stream, s⟩ ⟨.parameterGroups start 0, first.stream, s⟩
  | resultType {s t : Session} {stream : Stream} {start : Signature} {first : Shorter stream}
    {rest : Rest first.stream (Signature × Nat)} {last : Shorter rest.stream}
    {colon : Shorter last.stream} (opened : stream.skip? .openParen = some first)
    (listed : (optionalParameters start first.stream).Yields setup s rest t)
    (closed : rest.stream.skip? .closeParen = some last)
    (typed : last.stream.skip? .colon = some colon) :
    CallsInType setup ⟨.signature start, stream, s⟩ ⟨.typeExpression, colon.stream, t⟩
  | parameterNames {s : Session} {stream : Stream} {start : Signature} {defaults : Nat} :
    CallsInType setup ⟨.parameterGroups start defaults, stream, s⟩
      ⟨.typedNames maxParameters, stream, s⟩
  | defaultValue {s t : Session} {stream : Stream} {start : Signature} {defaults : Nat}
    {past : Past stream (List DeclaredName × TypeId)} {sign : Shorter past.stream}
    (read : (typedNames maxParameters stream).Yields setup s past t)
    (assigned : past.stream.skip? .assign = some sign) :
    CallsInType setup ⟨.parameterGroups start defaults, stream, s⟩
      ⟨.expression .constant, sign.stream, t⟩
  | nextParameters {s t u v : Session} {stream : Stream} {start extended : Signature}
    {defaults : Nat} {past : Past stream (List DeclaredName × TypeId)}
    {rest : Rest past.stream (Option Constant)} {comma : Shorter rest.stream}
    (read : (typedNames maxParameters stream).Yields setup s past t)
    (valued : (defaultValue past.value.1.length past.value.2 defaults past.stream).Yields setup t
      rest u)
    (added : (past.value.1.foldlM (addParameter past.value.2 rest.value) start).Yields setup u
      extended v) (found : rest.stream.skip? .comma = some comma) :
    CallsInType setup ⟨.parameterGroups start defaults, stream, s⟩
      ⟨.parameterGroups extended (if rest.value.isSome then defaults + 1 else defaults),
        comma.stream, v⟩

/-- Which readers an expression that is being read calls. -/
inductive CallsInExpression (setup : Setup) : Reading → Reading → Prop
  | tree {s : Session} {stream : Stream} {mode : Mode} :
    CallsInExpression setup ⟨.expression mode, stream, s⟩ ⟨.above 1, stream, s⟩
  | operand {s : Session} {stream : Stream} {lowest : Nat} :
    CallsInExpression setup ⟨.above lowest, stream, s⟩ ⟨.operand, stream, s⟩
  | operators {s : Session} {stream : Stream} {lowest : Nat} :
    CallsInExpression setup ⟨.above lowest, stream, s⟩
      ⟨.operators lowest (Expression.readOperand s.isModule stream).value,
        (Expression.readOperand s.isModule stream).stream, s⟩
  | unary {s : Session} {stream : Stream} {op : UnaryOperator}
    (word : Expression.unaryOperator? stream.kind = some op) :
    CallsInExpression setup ⟨.operand, stream, s⟩ ⟨.operand, stream.advance, s⟩
  | parentheses {s : Session} {stream : Stream} {paren : Shorter stream}
    (opened : stream.skip? .openParen = some paren) :
    CallsInExpression setup ⟨.operand, stream, s⟩ ⟨.above 1, paren.stream, s⟩
  | rightOperand {s : Session} {stream : Stream} {lowest : Nat} {left : Expression} {op : Operator}
    (word : Expression.operator? stream.kind = some op) (binds : lowest ≤ op.precedence) :
    CallsInExpression setup ⟨.operators lowest left, stream, s⟩
      ⟨.above (op.precedence + 1), stream.advance, s⟩
  | nextOperators {s : Session} {stream : Stream} {lowest : Nat} {left : Expression} {op : Operator}
    (word : Expression.operator? stream.kind = some op) (binds : lowest ≤ op.precedence)
    {right : Rest stream.advance Expression}
    (read : Expression.readAbove s.isModule (op.precedence + 1) stream.advance = right) :
    CallsInExpression setup ⟨.operators lowest left, stream, s⟩
      ⟨.operators lowest (.binary op stream.span left right.value), right.stream, s⟩

/-- While one reader is at work it calls another one. -/
inductive Calls (setup : Setup) (r c : Reading) : Prop
  | declaration (h : CallsInDeclaration setup r c)
  | function (h : CallsInFunction setup r c)
  | statement (h : CallsInStatement setup r c)
  | type (h : CallsInType setup r c)
  | expression (h : CallsInExpression setup r c)

end Reading

/-! ### The words that are passed -/

/-- Of two readers that start from one word the one that calls the other has the higher rank. -/
def Nonterminal.rank : Nonterminal → Nat
  | group _ | items _ => 4
  | item _ | statements => 3
  | structFields _ | parameterGroups .. | declarations | statement | expression _ => 2
  | typedNames _ | declaration | block | functionBody .. | typeExpression | above _ => 1
  | _ => 0

/-- The reader `c` starts behind a word that stands where `r` starts, or it is of a lower rank. -/
def Reading.Leaves (r c : Reading) : Prop :=
  c.stream.Behind r.stream ∨ c.stream.Within r.stream ∧ c.nonterminal.rank < r.nonterminal.rank

section

variable {setup : Setup} {r c : Reading}

theorem Reading.leaves_of_rank (same : c.stream = r.stream)
    (lower : c.nonterminal.rank < r.nonterminal.rank) : r.Leaves c :=
  .inr ⟨same ▸ .refl _, lower⟩

theorem Reading.CallsInDeclaration.leaves (h : Reading.CallsInDeclaration setup r c) :
    r.Leaves c := by
  cases h with
  | firstDeclaration | declaredFunction | declaredName | groupItem | firstItem | variableNames =>
    exact Reading.leaves_of_rank rfl (Nat.le_of_ble_eq_true rfl)
  | @nextDeclarations _ _ _ first semicolon => exact .inl (semicolon.lt.of_within first.le)
  | @declaredGroup _ _ _ first => exact .inl first.lt
  | @groupItems _ _ _ paren => exact .inl paren.lt
  | @nextItems _ _ _ _ _ first rest => exact .inl (rest.le.behind first.lt)
  | @namedType _ _ declared sign => exact .inl (sign.lt.trans declared.lt)
  | @constantValue _ _ declared sign => exact .inl (sign.lt.trans declared.lt)
  | @initialValue _ _ _ _ _ past sign => exact .inl (sign.lt.trans past.lt)
  | @inferredValue _ _ declared sign => exact .inl (sign.lt.trans declared.lt)

theorem Reading.CallsInFunction.leaves (h : Reading.CallsInFunction setup r c) : r.Leaves c := by
  cases h with
  | functionBlock => exact Reading.leaves_of_rank rfl (Nat.le_of_ble_eq_true rfl)
  | @receiver _ _ first => exact .inl first.lt
  | @receiverType _ _ first name colon => exact .inl (colon.lt.trans (name.lt.trans first.lt))
  | @functionSignature _ _ _ _ first head name =>
    have named := (name.stream.exportMark.le.behind name.lt).of_within head.le
    exact .inl (named.trans first.lt)
  | @functionBody _ _ _ _ _ _ first head name past =>
    have named := (name.stream.exportMark.le.behind name.lt).of_within head.le
    exact .inl (past.lt.trans (named.trans first.lt))

theorem Reading.CallsInStatement.leaves (h : Reading.CallsInStatement setup r c) : r.Leaves c := by
  cases h with
  | firstStatement | statedBlock | statedReturn | statedName | statedAssignment | blockBody =>
    exact Reading.leaves_of_rank rfl (Nat.le_of_ble_eq_true rfl)
  | @nextStatements _ _ _ first semicolon => exact .inl (semicolon.lt.of_within first.le)
  | @statedGroup _ _ _ first => exact .inl first.lt
  | @blockStatements _ _ first => exact .inl first.lt
  | @returnedValue _ _ _ first => exact .inl first.lt
  | @returnedStructure _ _ _ _ _ first => exact .inl first.lt
  | @assignedValue _ _ _ _ past sign => exact .inl (sign.lt.trans past.lt)

theorem Reading.CallsInType.leaves (h : Reading.CallsInType setup r c) : r.Leaves c := by
  cases h with
  | pointerType | arrayType | textType | structType | interfaceType | functionType | fieldNames
  | listedNames | parameterNames =>
    exact Reading.leaves_of_rank rfl (Nat.le_of_ble_eq_true rfl)
  | @pointerTarget _ _ first => exact .inl first.lt
  | @arrayLength _ _ first => exact .inl first.lt
  | @arrayElement _ _ _ first rest last => exact .inl (last.lt.trans (rest.le.behind first.lt))
  | @textLength _ _ first bracket => exact .inl (bracket.lt.trans first.lt)
  | @structFields _ _ _ first second => exact .inl (second.lt.trans first.lt)
  | @nextFields _ _ _ _ _ _ past rest => exact .inl (rest.le.behind past.lt)
  | @interfaceMethods _ _ _ first second => exact .inl (second.lt.trans first.lt)
  | @methodSignature _ _ _ name => exact .inl name.lt
  | @nextMethods _ _ _ _ _ _ name _ past rest =>
    exact .inl ((rest.le.behind past.lt).trans name.lt)
  | @typeSignature _ _ first => exact .inl first.lt
  | @nextNames _ _ _ first comma => exact .inl (comma.lt.trans first.lt)
  | @commonType _ _ _ names colon => exact .inl (colon.lt.trans names.lt)
  | @parameters _ _ _ first => exact .inl first.lt
  | @resultType _ _ _ _ first rest last colon =>
    exact .inl (colon.lt.trans (last.lt.trans (rest.le.behind first.lt)))
  | @defaultValue _ _ _ _ _ past sign => exact .inl (sign.lt.trans past.lt)
  | @nextParameters _ _ _ _ _ _ _ _ past rest comma =>
    exact .inl (comma.lt.trans (rest.le.behind past.lt))

theorem Reading.CallsInExpression.leaves (h : Reading.CallsInExpression setup r c) :
    r.Leaves c := by
  cases h with
  | tree | operand => exact Reading.leaves_of_rank rfl (Nat.le_of_ble_eq_true rfl)
  | @operators s stream => exact .inr ⟨(Expression.readOperand s.isModule stream).le,
    Nat.le_of_ble_eq_true rfl⟩
  | unary word => exact .inl (Expression.advance_behind_of_unaryOperator? word)
  | @parentheses _ _ paren => exact .inl paren.lt
  | rightOperand word => exact .inl (Expression.advance_behind_of_operator? word)
  | @nextOperators _ _ _ _ _ word _ right =>
    exact .inl (right.le.behind (Expression.advance_behind_of_operator? word))

theorem Reading.Calls.leaves (h : Reading.Calls setup r c) : r.Leaves c := by
  cases h with
  | declaration h => exact h.leaves
  | function h => exact h.leaves
  | statement h => exact h.leaves
  | type h => exact h.leaves
  | expression h => exact h.leaves

end

end Action

end FrontEnd
