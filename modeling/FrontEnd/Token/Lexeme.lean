import FrontEnd.Token
import FrontEnd.Diagnostic

/-!
What stands at the head of a text: a blank, a newline, a word, or something that no word starts
with. `Lexeme.read c cs` looks at a first character and the text behind it and says what was found
and how many characters of `cs` belong to it. Nothing here knows about places in a file.
-/

namespace FrontEnd

namespace Lexeme

inductive Content
  /-- Blanks and comments within one line. -/
  | blank
  /-- A line break, or a comment that runs over one. -/
  | newline
  | word (kind : TokenKind)
  | faulty (cause : Cause)
deriving Repr

end Lexeme

/-- A content and the number of characters it takes behind the first one. -/
structure Lexeme where
  content : Lexeme.Content
  length : Nat
deriving Repr

namespace Lexeme

def symbol (s : Symbol) (length : Nat) : Lexeme := ⟨.word (.symbol s), length⟩

/-- The word, if it could be read, and what is wrong with it otherwise. -/
def wordOr (cause : Cause) (kind? : Option TokenKind) : Content :=
  match kind? with
  | some kind => .word kind
  | none => .faulty cause

/-- A comment up to its closing mark: its length, and whether it runs over a line break. `none`
stands for a comment that is never closed. -/
def commentLength? : List Char → Option (Nat × Bool)
  | [] => none
  | '*' :: '/' :: _ => some (2, false)
  | c :: cs => (commentLength? cs).map fun (n, broken) => (n + 1, broken || c = '\n')

def readComment (cs : List Char) : Lexeme :=
  match commentLength? cs with
  | some (n, broken) => ⟨if broken then .newline else .blank, n + 1⟩
  | none => ⟨.faulty .unclosedComment, cs.length + 1⟩

/-- Digits and the underscores between them. -/
def isDigitOrMark (c : Char) : Bool :=
  c.isDigit || c = '_'

def digitRun (cs : List Char) : List Char :=
  cs.takeWhile isDigitOrMark

def digitsOf (run : List Char) : List Char :=
  run.filter (· ≠ '_')

def isHexDigit (c : Char) : Bool :=
  c.isDigit || ('a' ≤ c && c ≤ 'f') || ('A' ≤ c && c ≤ 'F')

def hexDigitValue (c : Char) : Nat :=
  if c.isDigit then c.toNat - '0'.toNat
  else if c.isLower then c.toNat - 'a'.toNat + 10
  else c.toNat - 'A'.toNat + 10

def hexValue (digits : List Char) : Nat :=
  digits.foldl (fun n c => 16 * n + hexDigitValue c) 0

/-- A hexadecimal number behind its mark `0x`; `cs` starts behind the mark. -/
def readHex (cs : List Char) : Lexeme :=
  let digits := cs.takeWhile isHexDigit
  let length := digits.length + 1
  if digits.isEmpty then ⟨.faulty .malformedHexadecimal, length⟩
  else ⟨wordOr .malformedHexadecimal ((Word.ofInt? (hexValue digits)).map .int), length⟩

/-- The part of a real number behind its whole digits: a point that a digit follows. -/
def fractionRun (cs : List Char) : List Char :=
  match cs with
  | '.' :: c :: rest => if c.isDigit then '.' :: c :: digitRun rest else []
  | _ => []

/-- The mark of an exponent with its sign. -/
def exponentMark (cs : List Char) : List Char :=
  match cs with
  | 'e' :: rest | 'E' :: rest =>
    match rest with
    | '+' :: _ => ['e', '+']
    | '-' :: _ => ['e', '-']
    | _ => ['e']
  | _ => []

def readIntegerValue (text : List Char) : Content :=
  wordOr (.numberTooLarge (String.ofList text)) ((Word.ofInt? (Number.naturalOf text)).map .int)

def readRealValue (text : List Char) : Content :=
  wordOr (.malformedReal (String.ofList text)) ((Number.readReal? (String.ofList text)).map .real)

/-- A decimal number that starts with the digit `c`. -/
def readDecimal (c : Char) (cs : List Char) : Lexeme :=
  let whole := digitRun cs
  let behindWhole := cs.drop whole.length
  let fraction := fractionRun behindWhole
  let behindFraction := behindWhole.drop fraction.length
  let mark := exponentMark behindFraction
  let length := whole.length + fraction.length + mark.length
  let mantissa := c :: digitsOf whole ++ digitsOf fraction
  if mark.isEmpty then
    if fraction.isEmpty then ⟨readIntegerValue mantissa, length⟩
    else ⟨readRealValue mantissa, length⟩
  else
    match behindFraction.drop mark.length with
    | d :: rest =>
      if d.isDigit then
        let exponent := digitRun rest
        ⟨readRealValue (mantissa ++ mark ++ d :: digitsOf exponent),
          length + 1 + exponent.length⟩
      else ⟨.faulty .exponentWithoutDigits, length⟩
    | [] => ⟨.faulty .exponentWithoutDigits, length⟩

def readNumber (c : Char) (cs : List Char) : Lexeme :=
  if c = '0' then
    match cs with
    | 'x' :: rest | 'X' :: rest => readHex rest
    | _ => readDecimal c cs
  else readDecimal c cs

def isNameStart (c : Char) : Bool :=
  Text.isLetter c || c = '_'

def isNamePart (c : Char) : Bool :=
  Text.isLetterOrDigit c || c = '_'

def wordKind (word : String) : TokenKind :=
  match Symbol.ofWord? word with
  | some s => .symbol s
  | none => .ident word

def readName (c : Char) (cs : List Char) : Lexeme :=
  let rest := cs.takeWhile isNamePart
  ⟨.word (wordKind (String.ofList (c :: rest))), rest.length⟩

/-- The character that an escape stands for, by the character behind the backslash. -/
def escaped? : Char → Option Char
  | 'n' => some '\n'
  | 't' => some '\t'
  | 'r' => some '\r'
  | '0' => some '\x00'
  | '\\' => some '\\'
  | '\'' => some '\''
  | '"' => some '"'
  | _ => none

/-- A string behind its opening quote: its characters, or what is wrong with it, and its length. -/
def readTextBody : List Char → Except Cause (List Char) × Nat
  | [] => (.error .unclosedText, 0)
  | '"' :: _ => (.ok [], 1)
  | '\n' :: _ => (.error .unclosedText, 1)
  | ['\\'] => (.error .unknownEscape, 1)
  | '\\' :: c :: cs =>
    match escaped? c with
    | some e =>
      let (body, n) := readTextBody cs
      (body.map (e :: ·), n + 2)
    | none => (.error .unknownEscape, 2)
  | c :: cs =>
    let (body, n) := readTextBody cs
    (body.map (c :: ·), n + 1)

def readText (cs : List Char) : Lexeme :=
  match readTextBody cs with
  | (.ok body, n) => ⟨.word (.text (String.ofList body)), n⟩
  | (.error cause, n) => ⟨.faulty cause, n⟩

/-- The closing quote of a character behind `n` characters. -/
def closeChar (value : Char) (n : Nat) : List Char → Lexeme
  | '\'' :: _ => ⟨.word (.char value), n + 1⟩
  | _ :: _ => ⟨.faulty .unclosedCharacter, n + 1⟩
  | [] => ⟨.faulty .unclosedCharacter, n⟩

/-- A character behind its opening quote. -/
def readChar : List Char → Lexeme
  | [] => ⟨.faulty .emptyCharacter, 0⟩
  | ['\\'] => ⟨.faulty .unknownEscape, 1⟩
  | '\\' :: c :: cs =>
    match escaped? c with
    | some value => closeChar value 2 cs
    | none => ⟨.faulty .unknownEscape, 2⟩
  | c :: cs => if c = '\'' || c = '\n' then ⟨.faulty .emptyCharacter, 1⟩ else closeChar c 1 cs

/-- A symbol that may have an equals sign behind it. -/
def readWithEquals (alone joined : Symbol) (cs : List Char) : Lexeme :=
  if cs.head? = some '=' then symbol joined 1 else symbol alone 0

/-- A logical operator is one character written twice. -/
def readLogical (c : Char) (op : Operator) (cs : List Char) : Lexeme :=
  if cs.head? = some c then symbol (.operator op) 1 else ⟨.faulty (.singleLogical c), 0⟩

def readSymbol (c : Char) (cs : List Char) : Lexeme :=
  match c with
  | '(' => symbol .openParen 0
  | ')' => symbol .closeParen 0
  | '[' => symbol .openBracket 0
  | ']' => symbol .closeBracket 0
  | '{' => symbol .openCurly 0
  | '}' => symbol .closeCurly 0
  | ',' => symbol .comma 0
  | ';' => symbol .semicolon 0
  | '.' => symbol .dot 0
  | '^' => symbol .caret 0
  | '+' => symbol (.operator .add) 0
  | '-' => symbol (.operator .subtract) 0
  | '*' => symbol (.operator .multiply) 0
  | '/' => symbol (.operator .divide) 0
  | '%' => symbol (.operator .modulus) 0
  | ':' => readWithEquals .colon .colonAssign cs
  | '=' => readWithEquals .assign (.operator .equal) cs
  | '!' => readWithEquals .not (.operator .notEqual) cs
  | '<' => readWithEquals (.operator .less) (.operator .lessOrEqual) cs
  | '>' => readWithEquals (.operator .greater) (.operator .greaterOrEqual) cs
  | '&' => readLogical '&' .and cs
  | '|' => readLogical '|' .or cs
  | _ => ⟨.faulty (.unknownCharacter c), 0⟩

/-- The lexeme that starts with `c` and goes on into `cs`. -/
def read (c : Char) (cs : List Char) : Lexeme :=
  if c = '\n' then ⟨.newline, 0⟩
  else if Text.isBlank c then ⟨.blank, 0⟩
  else if c = '/' && cs.head? = some '/' then ⟨.blank, (cs.takeWhile (· ≠ '\n')).length⟩
  else if c = '/' && cs.head? = some '*' then readComment (cs.drop 1)
  else if c.isDigit then readNumber c cs
  else if isNameStart c then readName c cs
  else if c = '"' then readText cs
  else if c = '\'' then readChar cs
  else readSymbol c cs

end Lexeme

end FrontEnd
