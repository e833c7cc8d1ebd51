import FrontEnd.Source.Position
import FrontEnd.Operator

/-!
The words of the language.
-/

namespace FrontEnd

/-- Words whose spelling says everything about them. -/
inductive Symbol
  | endOfFile
  | newline
  | importWord
  | typeWord
  | constWord
  | varWord
  | fnWord
  | structWord
  | interfaceWord
  | strWord
  | returnWord
  | openParen
  | closeParen
  | openBracket
  | closeBracket
  | openCurly
  | closeCurly
  | comma
  | semicolon
  | colon
  | colonAssign
  | assign
  | dot
  | caret
  | not
  | operator (op : Operator)
deriving DecidableEq, Repr

def Symbol.spelling : Symbol → String
  | endOfFile => "end of file"
  | newline => "newline"
  | importWord => "import"
  | typeWord => "type"
  | constWord => "const"
  | varWord => "var"
  | fnWord => "fn"
  | structWord => "struct"
  | interfaceWord => "interface"
  | strWord => "str"
  | returnWord => "return"
  | openParen => "("
  | closeParen => ")"
  | openBracket => "["
  | closeBracket => "]"
  | openCurly => "\x7b"
  | closeCurly => "\x7d"
  | comma => ","
  | semicolon => ";"
  | colon => ":"
  | colonAssign => ":="
  | assign => "="
  | dot => "."
  | caret => "^"
  | not => "!"
  | operator op => op.spelling

/-- The keyword that a word is, if it is one. -/
def Symbol.ofWord? (word : String) : Option Symbol :=
  [importWord, typeWord, constWord, varWord, fnWord, structWord, interfaceWord, strWord,
    returnWord].find? (·.spelling = word)

inductive TokenKind
  | ident (name : String)
  | int (value : Int64)
  | real (value : Float)
  | char (value : Char)
  | text (value : String)
  | symbol (s : Symbol)
deriving Repr

namespace TokenKind

/-- How a message names a word: symbols by themselves, all others by their class. -/
def spelling : TokenKind → String
  | ident _ => "identifier"
  | int _ => "integer number"
  | real _ => "real number"
  | char _ => "character"
  | text _ => "string"
  | symbol s => s.spelling

def symbol? : TokenKind → Option Symbol
  | symbol s => some s
  | _ => none

def ident? : TokenKind → Option String
  | ident name => some name
  | _ => none

/-- Whether a line that ends with this word ends its statement. -/
def endsStatement : TokenKind → Bool
  | symbol .strWord | symbol .returnWord | symbol .closeParen | symbol .closeBracket
  | symbol .closeCurly => true
  | symbol _ => false
  | _ => true

/-- The text of a word that is kept in the name table. -/
def name? : TokenKind → Option String
  | ident name | text name => some name
  | _ => none

end TokenKind

structure Token where
  kind : TokenKind
  span : Span
deriving Repr

end FrontEnd
