import FrontEnd.Token.Lexeme

/-!
The words of a text in order, read one after another. A stream knows its words ahead and the place
where the text ends; behind its last word it stays at the end of the file.

A line break ends a statement wherever the word before it can: a semicolon without any text is put
there, and also at the end of the file.
-/

namespace FrontEnd

structure Stream where
  /-- The words not read yet. -/
  ahead : List Token
  /-- The place of the end of the file. -/
  finish : Span
  /-- How many words have been read. -/
  index : Nat
deriving Repr

namespace Stream

/-! ### Reading a text -/

/-- The semicolon that a line break at `span` puts behind the words `done`, last word first. -/
def endStatement (done : List Token) (span : Span) : List Token :=
  match done with
  | last :: _ => if last.kind.endsStatement then ⟨.symbol .semicolon, span⟩ :: done else done
  | [] => done

/-- Reads the words of a text that starts at `place`; `done` holds the words before, the last one
first. -/
def scan (done : List Token) (place : Position) (text : List Char) : Except Fault Stream :=
  match text with
  | [] =>
    let span := ⟨place, place⟩
    .ok ⟨(endStatement done span).reverse, span, 0⟩
  | c :: cs =>
    let lexeme := Lexeme.read c cs
    let next := place.after (c :: cs.take lexeme.length)
    let rest := cs.drop lexeme.length
    match lexeme.content with
    | .blank => scan done next rest
    | .newline => scan (endStatement done ⟨place, next⟩) next rest
    | .word kind => scan (⟨kind, ⟨place, next⟩⟩ :: done) next rest
    | .faulty cause => .error ⟨cause, ⟨place, next⟩⟩
termination_by text.length
decreasing_by all_goals simp only [List.length_drop, List.length_cons]; omega

/-- The words of a whole text. -/
def ofText (text : String) : Except Fault Stream :=
  scan [] .origin text.toList

/-! ### Moving through the words -/

/-- The number of words ahead. -/
def size (s : Stream) : Nat := s.ahead.length

def kind (s : Stream) : TokenKind :=
  match s.ahead with
  | token :: _ => token.kind
  | [] => .symbol .endOfFile

def span (s : Stream) : Span :=
  match s.ahead with
  | token :: _ => token.span
  | [] => s.finish

/-- The word behind the current one; none at the end of the file. -/
def next? (s : Stream) : Option TokenKind :=
  match s.ahead with
  | _ :: token :: _ => some token.kind
  | [_] => some (.symbol .endOfFile)
  | [] => none

/-- The end of the file stays where it is. -/
def advance (s : Stream) : Stream :=
  match s.ahead with
  | _ :: rest => { s with ahead := rest, index := s.index + 1 }
  | [] => s

/-- Whether the current word is the symbol `wanted`. -/
def isAt (s : Stream) (wanted : Symbol) : Bool :=
  s.kind.symbol? = some wanted

/-- The name that the current word is. -/
def ident? (s : Stream) : Option String :=
  s.kind.ident?

/-- `t` is what is left of `s` behind some of its words. -/
abbrev Within (t s : Stream) : Prop :=
  t.ahead <:+ s.ahead ∧ t.size ≤ s.size

/-- `t` is what is left of `s` behind at least one of its words. -/
abbrev Behind (t s : Stream) : Prop :=
  t.ahead <:+ s.ahead ∧ t.size < s.size

namespace Within

theorem refl (s : Stream) : s.Within s :=
  ⟨List.suffix_rfl, Nat.le_refl _⟩

theorem trans {r t s : Stream} (h : r.Within t) (h' : t.Within s) : r.Within s :=
  ⟨h.1.trans h'.1, Nat.le_trans h.2 h'.2⟩

theorem behind {r t s : Stream} (h : r.Within t) (h' : t.Behind s) : r.Behind s :=
  ⟨h.1.trans h'.1, Nat.lt_of_le_of_lt h.2 h'.2⟩

end Within

namespace Behind

theorem within {t s : Stream} (h : t.Behind s) : t.Within s :=
  ⟨h.1, Nat.le_of_lt h.2⟩

theorem trans {r t s : Stream} (h : r.Behind t) (h' : t.Behind s) : r.Behind s :=
  ⟨h.1.trans h'.1, Nat.lt_trans h.2 h'.2⟩

theorem of_within {r t s : Stream} (h : r.Behind t) (h' : t.Within s) : r.Behind s :=
  ⟨h.1.trans h'.1, Nat.lt_of_lt_of_le h.2 h'.2⟩

end Behind

theorem advance_behind_of_ahead {s : Stream} {token : Token} {rest : List Token}
    (h : s.ahead = token :: rest) : s.advance.Behind s := by
  simp [Behind, advance, size, h]

theorem advance_behind {s : Stream} (h : s.kind.symbol? ≠ some .endOfFile) :
    s.advance.Behind s := by
  cases hs : s.ahead with
  | nil => simp [kind, hs, TokenKind.symbol?] at h
  | cons token rest => exact advance_behind_of_ahead hs

theorem advance_behind_of_ident? {s : Stream} {name : String} (h : s.ident? = some name) :
    s.advance.Behind s := by
  apply advance_behind
  unfold ident? at h
  cases hk : s.kind <;> simp_all [TokenKind.ident?, TokenKind.symbol?]

/-- Fails unless the current word is `wanted`; does not move. -/
def check (s : Stream) (wanted : Symbol) : Except Fault Unit :=
  if s.isAt wanted then .ok ()
  else .error ⟨.expected wanted.spelling s.kind.spelling, s.span⟩

/-- Fails unless the current word is a name; does not move. -/
def checkIdent (s : Stream) : Except Fault String :=
  match s.ident? with
  | some name => .ok name
  | none => .error ⟨.expected "identifier" s.kind.spelling, s.span⟩

/-- The stream behind the word `wanted`. -/
def eat (s : Stream) (wanted : Symbol) : Except Fault Stream :=
  (s.check wanted).map fun _ => s.advance

/-- The current name and the stream behind it. -/
def eatIdent (s : Stream) : Except Fault (String × Stream) :=
  s.checkIdent.map fun name => (name, s.advance)

/-- The semicolon between two entries of a list; before the bracket that closes the list it may be
missing. -/
def eatSeparator (s : Stream) (closing : Symbol) : Except Fault Stream :=
  if s.isAt closing then .ok s else s.eat .semicolon

end Stream

end FrontEnd
