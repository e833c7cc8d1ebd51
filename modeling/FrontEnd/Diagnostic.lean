import FrontEnd.Source.Position
import FrontEnd.Constant

/-!
Why a program is refused. A `Cause` says what is wrong in terms of the language; its category, its
message and its advice follow from it. The first fault of a program is the only one reported.
-/

namespace FrontEnd

/-- The parts of the language in which a fault can lie. -/
inductive Category
  | grammar
  | typing
  | rule
  | link
  | file
  | settings
  | internal
deriving DecidableEq, Repr

namespace Category

def name : Category → String
  | grammar => "Syntax"
  | typing => "Type"
  | rule => "Rule"
  | link => "Link"
  | file => "File"
  | settings => "Config"
  | internal => "Compiler"

/-- How the category is called in front of a message. -/
def title : Category → String
  | grammar => "Syntax Error"
  | typing => "Type Error"
  | rule => "Language Rule Violation"
  | link => "Link Error"
  | file => "File Error"
  | settings => "Malformed Config"
  | internal => "Compiler Bug"

end Category

/-- The kinds of advice that can come with a message. -/
inductive Hint
  | stage
  | suggestion
  | replacement
  | insertion
  | place
  | expectedType
deriving DecidableEq, Repr

def Hint.name : Hint → String
  | stage => "CompilationStage"
  | suggestion => "PrimarySuggestion"
  | replacement => "SuggestedReplacement"
  | insertion => "SuggestedInsertion"
  | place => "SuggestedLocation"
  | expectedType => "ExpectedType"

/-- Conditions that hold for every program; a fault of this kind is one of the front end itself. -/
inductive InternalCause
  | noConstantValue
  | noConstantOperands (operator : String)
  | noConstantOperand
  | mismatchedPayload (name kind : String)
  | noStorage
  | noGlobal (slot : Nat)
  | wrongStorage
  | returnOutsideFunction
  | noFunctionType
  | noEntryStub
  | rootNotFirst (number : Nat)
  | noPrototypeType (name : String)
  | noPrototypeSlot (slot : Nat)
  | unnamedForward
deriving DecidableEq, Repr

def InternalCause.message : InternalCause → String
  | noConstantValue => "Constant expression produced no value"
  | noConstantOperands operator => "Constant operands expected for " ++ operator
  | noConstantOperand => "Constant operand expected"
  | mismatchedPayload name kind =>
    "Identifier " ++ name ++ " of kind " ++ kind ++ " has a mismatched payload"
  | noStorage => "Variable without storage"
  | noGlobal slot => "Global slot " ++ toString slot ++ " was never allocated"
  | wrongStorage => "Variable storage doesn't match the current scope"
  | returnOutsideFunction => "Return statement outside of a function body"
  | noFunctionType => "Function identifier without a function type"
  | noEntryStub => "Entry stub was not emitted before the entry function"
  | rootNotFirst number => "Root module was parsed as module " ++ toString number
  | noPrototypeType name => "Prototype " ++ name ++ " has no function type"
  | noPrototypeSlot slot => "Prototype slot " ++ toString slot ++ " was never reserved"
  | unnamedForward => "Forward type without an identifier"

inductive Cause
  -- text
  | emptyCharacter
  | unclosedCharacter
  | singleLogical (c : Char)
  | unknownCharacter (c : Char)
  | unclosedComment
  | malformedHexadecimal
  | exponentWithoutDigits
  | malformedReal (text : String)
  | numberTooLarge (text : String)
  | unknownEscape
  | unclosedText
  -- grammar
  | expected (wanted found : String)
  | expressionExpected (found : String)
  | typeExpected (found : String)
  | declarationExpected (found : String)
  | statementExpected (found : String)
  | importPathExpected (found : String)
  -- names
  | tooManyNames
  | unknownName (name : String)
  | unknownMember (file name : String)
  | unknownModule (file : String)
  | moduleNotImported (file : String)
  | memberNotExported (file name : String)
  | duplicateName (name : String)
  | localExport (name : String)
  -- types
  | typeNameExpected (kind name : String)
  | forwardByValue (name : String)
  | unresolvedForward (name : String)
  | fieldExport (name : String)
  | duplicateField (name : String)
  | typeTooLarge
  | localTooLarge (name : String)
  | negativeArrayLength
  | negativeTextLength
  | lengthNotInteger (found : String)
  -- signatures
  | commonDefault
  | structuredDefault
  | defaultsNotLast
  | parameterExport (name : String)
  | parametersTooLarge
  | receiverNotPointer
  -- expressions
  | incompatible (target found : String)
  | operatorNotApplicable (operator type : String)
  | folding (fault : FoldFault)
  | variableInConstant (name : String)
  | typeInExpression (name : String)
  -- declarations and statements
  | nestedFunction
  | methodNamedLikeField (owner name : String)
  | duplicateMethod (name : String)
  | severalInitialized
  | variableExpected (kind name : String)
  | notInferable (name type : String)
  | resultMissing (type : String)
  | resultUnexpected
  | illegalEntry (name : String)
  -- programs
  | cyclicImport (path : String)
  | importsTooDeep (limit : Nat)
  | unresolvedPrototype (name : String)
  | hostArity (name : String) (host declared : Nat)
  | entryUndefined (name : String)
  | unreadable (message : String)
  | malformedSettings
  | negativeTextLengthSetting
  | emptyEntrySetting
  | internal (cause : InternalCause)
deriving DecidableEq, Repr

namespace Cause

def category : Cause → Category
  | emptyCharacter | unclosedCharacter | singleLogical _ | unknownCharacter _ | unclosedComment
  | malformedHexadecimal | exponentWithoutDigits | malformedReal _ | numberTooLarge _
  | unknownEscape | unclosedText | expected .. | expressionExpected _ | typeExpected _
  | declarationExpected _ | statementExpected _ | importPathExpected _ => .grammar
  | lengthNotInteger _ | incompatible .. | operatorNotApplicable .. => .typing
  | unresolvedPrototype _ | hostArity .. | entryUndefined _ => .link
  | unreadable _ => .file
  | malformedSettings | negativeTextLengthSetting | emptyEntrySetting => .settings
  | internal _ => .internal
  | _ => .rule

def message : Cause → String
  | emptyCharacter => "Expected a character after the single quote in a char literal"
  | unclosedCharacter => "Character literal is missing its closing quote"
  | singleLogical c =>
    "Invalid Token Used: '" ++ c.toString ++ "', logical operators are written twice"
  | unknownCharacter c =>
    "Invalid Token Used: '" ++ c.toString ++ "' this is not recognised by the compiler"
  | unclosedComment => "Unterminated block comment"
  | malformedHexadecimal => "Invalid hexadecimal number"
  | exponentWithoutDigits => "Exponent of a real number must have digits"
  | malformedReal text => "Invalid real number: " ++ text
  | numberTooLarge text => "Number is too large: " ++ text
  | unknownEscape => "Unknown escape sequence"
  | unclosedText => "Unterminated string literal - missing closing quote"
  | expected wanted found => wanted ++ " expected but " ++ found ++ " found"
  | expressionExpected found => "Expression expected but " ++ found ++ " found"
  | typeExpected found => "Type expected but " ++ found ++ " found"
  | declarationExpected found => "Declaration expected but " ++ found ++ " found"
  | statementExpected found => "Statement expected but " ++ found ++ " found"
  | importPathExpected found => "Import path expected but " ++ found ++ " found"
  | tooManyNames => "Too many identifiers"
  | unknownName name => "Unknown identifier " ++ name
  | unknownMember file name => "Unknown identifier " ++ file ++ "." ++ name
  | unknownModule file => "Unknown module " ++ file
  | moduleNotImported file => "Module " ++ file ++ " is not imported"
  | memberNotExported file name => "Identifier " ++ file ++ "." ++ name ++ " is not exported"
  | duplicateName name => "Duplicate identifier " ++ name
  | localExport name => "Local identifier " ++ name ++ " cannot be exported"
  | typeNameExpected kind name => "Type expected but " ++ kind ++ " " ++ name ++ " found"
  | forwardByValue name =>
    "Unresolved forward type " ++ name ++ " can only be used through a pointer"
  | unresolvedForward name => "Unresolved forward type declaration " ++ name
  | fieldExport name => "Field " ++ name ++ " cannot be exported"
  | duplicateField name => "Duplicate field " ++ name
  | typeTooLarge => "Type is too large"
  | localTooLarge name => "Local variable " ++ name ++ " is too large"
  | negativeArrayLength => "Array length cannot be negative"
  | negativeTextLength => "String length cannot be negative"
  | lengthNotInteger found => "Incompatible types int and " ++ found
  | commonDefault => "Parameter list cannot have common default value"
  | structuredDefault => "Structured default values are not allowed"
  | defaultsNotLast => "Parameters with default values should be the last ones"
  | parameterExport name => "Parameter " ++ name ++ " cannot be exported"
  | parametersTooLarge => "Parameters are too large"
  | receiverNotPointer => "Receiver should be a pointer to a structured type"
  | incompatible target found => "Incompatible types " ++ target ++ " and " ++ found
  | operatorNotApplicable operator type =>
    "Operator " ++ operator ++ " is not applicable to " ++ type
  | folding fault => fault.message
  | variableInConstant name => "Constant expected but variable " ++ name ++ " found"
  | typeInExpression name => "Expression expected but type " ++ name ++ " found"
  | nestedFunction => "Nested functions are not allowed"
  | methodNamedLikeField owner name => owner ++ " already has field " ++ name
  | duplicateMethod name => "Duplicate method " ++ name
  | severalInitialized => "Unable to initialize multiple variables"
  | variableExpected kind name => "Variable expected but " ++ kind ++ " " ++ name ++ " found"
  | notInferable name type => "Type of " ++ name ++ " cannot be inferred from " ++ type
  | resultMissing type => "Function must return " ++ type
  | resultUnexpected => "Function does not return a value"
  | illegalEntry name => "Illegal " ++ name ++ "() signature"
  | cyclicImport path => "Cyclic import of " ++ path
  | importsTooDeep limit => "Imports are nested more than " ++ toString limit ++ " levels deep"
  | unresolvedPrototype name => "Unresolved prototype of " ++ name
  | hostArity name host declared =>
    "Host function " ++ name ++ " takes " ++ toString host ++
      " parameters but its prototype declares " ++ toString declared
  | entryUndefined name => name ++ "() is not defined"
  | unreadable message => message
  | malformedSettings => "Could not parse config file"
  | negativeTextLengthSetting => "default_str_len cannot be negative"
  | emptyEntrySetting => "entry_function cannot be empty"
  | internal cause => cause.message

/-- The stage that a fault of the text or the grammar belongs to, and what to do about it. -/
def advice : Cause → List (Hint × String)
  | emptyCharacter =>
    [(.stage, "Tokenization"),
     (.suggestion, "Character literals must be exactly one character between single quotes"),
     (.replacement, "'x'")]
  | unclosedCharacter => [(.stage, "Tokenization"), (.insertion, "'")]
  | singleLogical _ => [(.stage, "Tokenization"), (.suggestion, "Use '&&' or '||'")]
  | unknownCharacter _ =>
    [(.stage, "Tokenization"), (.suggestion, "Check for typos or unsupported characters")]
  | unclosedComment => [(.stage, "Tokenization"), (.insertion, "*/")]
  | malformedHexadecimal | exponentWithoutDigits | numberTooLarge _ => [(.stage, "Tokenization")]
  | unknownEscape =>
    [(.stage, "Tokenization"),
     (.suggestion, "Supported escapes are \\n \\t \\r \\0 \\\\ \\' \\\"")]
  | unclosedText =>
    [(.stage, "Tokenization"),
     (.suggestion, "Add closing double quote at the end of the string"),
     (.insertion, "\""),
     (.place, "at end of string")]
  | expected .. => [(.stage, "Parsing")]
  | expressionExpected _ => [(.stage, "Expression Parsing")]
  | typeExpected _ => [(.stage, "Type Parsing")]
  | declarationExpected _ => [(.stage, "Declaration Parsing")]
  | statementExpected _ => [(.stage, "Statement Parsing")]
  | importPathExpected _ =>
    [(.stage, "Import Parsing"),
     (.suggestion, "Import paths are string literals relative to this file")]
  | tooManyNames =>
    [(.stage, "Declaration Parsing"), (.suggestion, "Split the list into several declarations")]
  | moduleNotImported _ =>
    [(.suggestion, "Add the module to the import clause of this file")]
  | memberNotExported .. => [(.suggestion, "Mark the declaration with '*' to export it")]
  | duplicateName _ => [(.suggestion, "Rename one of the declarations")]
  | localExport _ => [(.suggestion, "Remove the '*' export mark")]
  | forwardByValue _ => [(.suggestion, "Declare the type before embedding it by value")]
  | unresolvedForward _ =>
    [(.suggestion, "Declare the type in the same type group as the pointer to it")]
  | fieldExport _ => [(.suggestion, "Export the struct type instead of its fields")]
  | lengthNotInteger _ => [(.expectedType, "int")]
  | commonDefault =>
    [(.suggestion, "Give the parameter with a default value its own group")]
  | defaultsNotLast =>
    [(.suggestion, "Move parameters with default values to the end of the list")]
  | receiverNotPointer => [(.suggestion, "Use a pointer receiver such as (p: ^Point)")]
  | variableInConstant _ =>
    [(.suggestion,
      "Only constants can be used here, global initializers are evaluated at compile time")]
  | methodNamedLikeField .. => [(.suggestion, "Rename the method or the field")]
  | duplicateMethod _ => [(.suggestion, "Rename one of the methods")]
  | severalInitialized => [(.suggestion, "Declare each initialized variable separately")]
  | notInferable .. => [(.suggestion, "Declare the variable with an explicit type")]
  | illegalEntry _ =>
    [(.suggestion, "The entry function takes no parameters and returns nothing")]
  | cyclicImport _ =>
    [(.suggestion, "Move the shared declarations into a module both files can import")]
  | unresolvedPrototype _ =>
    [(.suggestion, "Give the function a body or register a host function with this name")]
  | entryUndefined _ => [(.suggestion, "Add an entry function with a body to the root file")]
  | malformedSettings =>
    [(.stage, "Config"), (.suggestion, "Check the config file is valid TOML with known keys")]
  | negativeTextLengthSetting => [(.stage, "Config")]
  | emptyEntrySetting =>
    [(.stage, "Config"),
     (.suggestion, "Remove the key to use the default entry function 'main'")]
  | _ => []

end Cause

/-- A cause at a place of the file being read. -/
structure Fault where
  cause : Cause
  span : Span
deriving DecidableEq, Repr

/-- A fault together with the path of its file. -/
structure Diagnostic extends Fault where
  scope : String
deriving DecidableEq, Repr

namespace Diagnostic

/-- A fault of a whole file stands at its start. -/
def ofFile (path : String) (cause : Cause) : Diagnostic :=
  { cause, span := .origin, scope := path }

/-- A fault of the front end itself has no place. -/
def ofInternal (cause : InternalCause) : Diagnostic :=
  .ofFile "" (.internal cause)

def category (d : Diagnostic) : Category := d.cause.category

def message (d : Diagnostic) : String := d.cause.message

/-- The advice that a program can follow, if there is any. -/
def suggestion? (d : Diagnostic) : Option String :=
  (d.cause.advice.find? (·.1 = .suggestion)).map (·.2)

/-- One line with the category, the place counted from one, and the message. -/
def toText (d : Diagnostic) : String :=
  d.category.title ++ " (" ++ d.scope ++ ":" ++ toString (d.span.first.line + 1) ++ ":" ++
    toString (d.span.first.column + 1) ++ "): " ++ d.message

end Diagnostic

def Fault.inFile (f : Fault) (path : String) : Diagnostic :=
  { f with scope := path }

end FrontEnd
