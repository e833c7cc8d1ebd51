import FrontEnd.Settings

/-!
The part of TOML that a settings file can consist of: comments, and keys with strings or integers. A
settings file that uses any other part is refused, because no setting has a value of that kind.
-/

namespace FrontEnd.Toml

inductive Value
  | text (value : String)
  | int (value : Int)
deriving DecidableEq, Repr

/-- A value and the text behind it. -/
abbrev Reader (α : Type) := List Char → Option (α × List Char)

def isSpace (c : Char) : Bool := c = ' ' || c = '\t'

/-- Controls other than the tab do not stand in comments and strings. -/
def isControl (c : Char) : Bool := (c.toNat < 0x20 && c ≠ '\t') || c.toNat = 0x7f

def skipSpace (cs : List Char) : List Char := cs.dropWhile isSpace

/-- The text behind a line break. -/
def lineBreak? : List Char → Option (List Char)
  | '\n' :: rest => some rest
  | '\r' :: '\n' :: rest => some rest
  | _ => none

/-! ### Strings -/

def hexDigit? (c : Char) : Option Nat :=
  if c.isDigit then some (c.toNat - '0'.toNat)
  else if 'a' ≤ c && c ≤ 'f' then some (c.toNat - 'a'.toNat + 10)
  else if 'A' ≤ c && c ≤ 'F' then some (c.toNat - 'A'.toNat + 10)
  else none

/-- A character by the hexadecimal digits of its code point. -/
def codePoint? (digits : List Char) : Option Char := do
  let n ← digits.foldlM (fun n c => (hexDigit? c).map (16 * n + ·)) 0
  if n.isValidChar then some (Char.ofNat n) else none

/-- A character by the letter behind a backslash. -/
def letterEscape? : Char → Option Char
  | 'b' => some '\x08'
  | 't' => some '\t'
  | 'n' => some '\n'
  | 'f' => some '\x0c'
  | 'r' => some '\r'
  | 'e' => some '\x1b'
  | '"' => some '"'
  | '\\' => some '\\'
  | _ => none

/-- An escape behind its backslash. -/
def escape? : Reader Char
  | 'x' :: a :: b :: rest => (codePoint? [a, b]).map (·, rest)
  | 'u' :: a :: b :: c :: d :: rest => (codePoint? [a, b, c, d]).map (·, rest)
  | 'U' :: a :: b :: c :: d :: e :: f :: g :: h :: rest =>
    (codePoint? [a, b, c, d, e, f, g, h]).map (·, rest)
  | c :: rest => (letterEscape? c).map (·, rest)
  | [] => none

theorem length_escape? {cs rest : List Char} {c : Char} (h : escape? cs = some (c, rest)) :
    rest.length < cs.length := by
  unfold escape? at h
  split at h
  all_goals
    simp only [Option.map_eq_some_iff, Prod.mk.injEq, reduceCtorEq] at h
    try obtain ⟨_, _, _, rfl⟩ := h
    try simp only [List.length_cons]; omega

/-- A string on one line with escapes, behind its opening quote. -/
def basicText : Reader (List Char)
  | [] => none
  | '"' :: rest => some ([], rest)
  | '\\' :: cs =>
    match h : escape? cs with
    | none => none
    | some (c, rest) =>
      have := length_escape? h
      (basicText rest).map fun (more, rest) => (c :: more, rest)
  | c :: cs =>
    if isControl c then none else (basicText cs).map fun (more, rest) => (c :: more, rest)
termination_by cs => cs.length

/-- A string on one line without escapes, behind its opening quote. -/
def literalText : Reader (List Char)
  | [] => none
  | '\'' :: rest => some ([], rest)
  | c :: cs =>
    if isControl c then none else (literalText cs).map fun (more, rest) => (c :: more, rest)

/-- The quotes that end a string over several lines. Up to two more belong to the string. -/
def closing? (quote : Char) (cs : List Char) : Option (List Char × List Char) :=
  let n := (cs.takeWhile (· = quote)).length
  if n < 3 then none
  else
    let extra := min n 5 - 3
    some (List.replicate extra quote, cs.drop (extra + 3))

/-- The text without the spaces, tabs and line breaks at its start. -/
def skipBlankLines : List Char → List Char
  | ' ' :: rest => skipBlankLines rest
  | '\t' :: rest => skipBlankLines rest
  | '\n' :: rest => skipBlankLines rest
  | '\r' :: '\n' :: rest => skipBlankLines rest
  | cs => cs

/-- The text behind a backslash that ends a line, without the blanks and lines that follow. -/
def joinedLine? (cs : List Char) : Option (List Char) :=
  (lineBreak? (skipSpace cs)).map skipBlankLines

theorem length_lineBreak? {cs rest : List Char} (h : lineBreak? cs = some rest) :
    rest.length < cs.length := by
  unfold lineBreak? at h
  split at h
  all_goals
    simp only [Option.some.injEq, reduceCtorEq] at h
    try subst h
    try simp only [List.length_cons]; omega

theorem length_dropWhile_le (p : Char → Bool) (cs : List Char) :
    (cs.dropWhile p).length ≤ cs.length := by
  induction cs with
  | nil => simp
  | cons c cs ih =>
    rw [List.dropWhile_cons]
    split
    · exact Nat.le_succ_of_le ih
    · exact Nat.le_refl _

theorem length_skipBlankLines_le (cs : List Char) :
    (skipBlankLines cs).length ≤ cs.length := by
  fun_induction skipBlankLines cs <;> grind

theorem length_joinedLine? {cs rest : List Char} (h : joinedLine? cs = some rest) :
    rest.length < cs.length := by
  obtain ⟨line, hl, rfl⟩ := Option.map_eq_some_iff.1 h
  have h₁ := length_lineBreak? hl
  have h₂ := length_skipBlankLines_le line
  have h₃ : (skipSpace cs).length ≤ cs.length := length_dropWhile_le isSpace cs
  omega

/-- A string over several lines with escapes, behind its opening quotes. -/
def longBasicText (cs : List Char) : Option (List Char × List Char) :=
  match closing? '"' cs with
  | some found => some found
  | none =>
    match cs with
    | [] => none
    | '\\' :: cs =>
      match hj : joinedLine? cs with
      | some rest =>
        have := length_joinedLine? hj
        longBasicText rest
      | none =>
        match he : escape? cs with
        | none => none
        | some (c, rest) =>
          have := length_escape? he
          (longBasicText rest).map fun (more, rest) => (c :: more, rest)
    | c :: rest =>
      if isControl c && c ≠ '\n' && !(c = '\r' && rest.head? = some '\n') then none
      else (longBasicText rest).map fun (more, rest) => (c :: more, rest)
termination_by cs.length

/-- A string over several lines without escapes, behind its opening quotes. -/
def longLiteralText (cs : List Char) : Option (List Char × List Char) :=
  match closing? '\'' cs with
  | some found => some found
  | none =>
    match cs with
    | [] => none
    | c :: rest =>
      if isControl c && c ≠ '\n' && !(c = '\r' && rest.head? = some '\n') then none
      else (longLiteralText rest).map fun (more, rest) => (c :: more, rest)
termination_by cs.length

/-- A line break right behind the opening quotes does not belong to the string. -/
def skipLineBreak (cs : List Char) : List Char := (lineBreak? cs).getD cs

def text? (cs : List Char) : Option (List Char × List Char) :=
  match cs with
  | '"' :: '"' :: '"' :: rest => longBasicText (skipLineBreak rest)
  | '\'' :: '\'' :: '\'' :: rest => longLiteralText (skipLineBreak rest)
  | '"' :: rest => basicText rest
  | '\'' :: rest => literalText rest
  | _ => none

/-! ### Integers -/

/-- Digits with single underscores between them. -/
def digitValue? (radix : Nat) : List Char → Nat → Option Nat
  | [], _ => none
  | [c], n => (digit? c).map (radix * n + ·)
  | c :: '_' :: rest, n => (digit? c).bind fun d => digitValue? radix rest (radix * n + d)
  | c :: rest, n => (digit? c).bind fun d => digitValue? radix rest (radix * n + d)
where
  digit? (c : Char) : Option Nat := (hexDigit? c).filter (· < radix)

/-- Decimal digits without a leading zero. -/
def decimal? (cs : List Char) : Option Nat :=
  if cs.head? = some '0' && cs.length ≠ 1 then none else digitValue? 10 cs 0

def integer? (cs : List Char) : Option Int :=
  match cs with
  | '0' :: 'x' :: rest => (digitValue? 16 rest 0).map Int.ofNat
  | '0' :: 'o' :: rest => (digitValue? 8 rest 0).map Int.ofNat
  | '0' :: 'b' :: rest => (digitValue? 2 rest 0).map Int.ofNat
  | '+' :: rest => (decimal? rest).map Int.ofNat
  | '-' :: rest => (decimal? rest).map fun n => -(n : Int)
  | _ => (decimal? cs).map Int.ofNat

/-! ### Lines -/

def isBareKey (c : Char) : Bool := c.isAlphanum || c = '_' || c = '-'

def key? (cs : List Char) : Option (List Char × List Char) :=
  match cs with
  | '"' :: rest => basicText rest
  | '\'' :: rest => literalText rest
  | _ =>
    let key := cs.takeWhile isBareKey
    if key.isEmpty then none else some (key, cs.drop key.length)

def value? (cs : List Char) : Option (Value × List Char) :=
  if cs.head? = some '"' || cs.head? = some '\'' then
    (text? cs).map fun (value, rest) => (.text (String.ofList value), rest)
  else
    let word := cs.takeWhile fun c => !(isSpace c || c = '#' || c = '\n' || c = '\r')
    (integer? word).map fun n => (.int n, cs.drop word.length)

/-- The text behind the rest of a line, which holds nothing but a comment. -/
def endLine? (cs : List Char) : Option (List Char) :=
  let cs := skipSpace cs
  let cs := if cs.head? = some '#' then cs.dropWhile (!isControl ·) else cs
  if cs.isEmpty then some [] else lineBreak? cs

/-- One line: a key with its value, or nothing. -/
def line? (cs : List Char) : Option (Option (String × Value) × List Char) :=
  match endLine? cs with
  | some rest => some (none, rest)
  | none => do
    let (key, cs) ← key? (skipSpace cs)
    match skipSpace cs with
    | '=' :: cs =>
      let (value, cs) ← value? (skipSpace cs)
      let rest ← endLine? cs
      return (some (String.ofList key, value), rest)
    | _ => none

/-- All lines of a text, at most `lines` of them. -/
def linesWithin? : Nat → List Char → Option (List (String × Value))
  | _, [] => some []
  | 0, _ => none
  | lines + 1, cs => do
    let (found, rest) ← line? cs
    let entries ← linesWithin? lines rest
    return found.toList ++ entries

/-- The keys of a text with their values. A mark of the byte order at the start is no part of the
text. There are no more lines than characters. -/
def entries? (text : String) : Option (List (String × Value)) :=
  let cs := text.toList
  let cs := if cs.head? = some '\ufeff' then cs.drop 1 else cs
  linesWithin? cs.length cs

end FrontEnd.Toml

namespace FrontEnd.Settings

/-- The deepest nesting of imports that a settings file can ask for, the largest word without sign. -/
def maxDepthLimit : Int := 0xffffffffffffffff

/-- One setting by its key; keys that are not known and values of the wrong kind are refused. -/
def set? (s : Settings) : String × Toml.Value → Option Settings
  | ("entry_function", .text value) => some { s with entryFunction := value }
  | ("file_extension", .text value) => some { s with fileExtension := value }
  | ("default_str_len", .int n) =>
    (Word.ofInt? n).map fun value => { s with defaultTextLength := value }
  | ("max_import_depth", .int n) =>
    if 0 ≤ n && n ≤ maxDepthLimit then some { s with maxImportDepth := n.toNat } else none
  | _ => none

/-- The settings of a text. A key that is given twice is refused. -/
def ofToml? (text : String) : Option Settings := do
  let entries ← Toml.entries? text
  if (entries.map (·.1)).Nodup then entries.foldlM set? standard else none

/-- Reads a settings file. -/
def ofText (text path : String) : Except Diagnostic Settings :=
  match ofToml? text with
  | none => .error (.ofFile path .malformedSettings)
  | some settings =>
    match settings.check with
    | .ok settings => .ok settings
    | .error cause => .error (.ofFile path cause)

end FrontEnd.Settings
