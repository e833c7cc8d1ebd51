import FrontEnd.Proofs.Token.Layout
import Mathlib.Data.Nat.Digits.Defs

/-!
Writing words and reading them back. A text that is written word by word, with blanks, line breaks
and comments between the words, is read as these words; a semicolon stands behind each word that can
end a statement and is the last one of its line.
-/

namespace FrontEnd

open Lexeme

/-! ### Blanks -/

namespace Text

/-- The code points of all blanks. -/
def blankPoints : List Nat :=
  [0x9, 0xa, 0xb, 0xc, 0xd, 0x20, 0x85, 0xa0, 0x1680, 0x2000, 0x2001, 0x2002, 0x2003, 0x2004, 0x2005,
    0x2006, 0x2007, 0x2008, 0x2009, 0x200a, 0x2028, 0x2029, 0x202f, 0x205f, 0x3000]

theorem mem_blankPoints {c : Char} (h : isBlank c = true) : c.toNat ∈ blankPoints := by
  simp only [isBlank, Bool.or_eq_true, Bool.and_eq_true, decide_eq_true_eq] at h
  simp only [blankPoints, List.mem_cons, List.not_mem_nil, or_false]
  omega

theorem Ranges.contains_eq_any (ranges : Ranges) (c : Char) :
    ranges.contains c = ranges.toList.any fun r => r.1 ≤ c.toNat && c.toNat ≤ r.2 := by
  rw [Ranges.contains, Array.any_toList]

/-- What holds of no code point of a blank holds of no blank. -/
theorem eq_false_of_isBlank {p : Char → Bool} {c : Char}
    (h : ∀ n ∈ blankPoints, p (Char.ofNat n) = false) (blank : isBlank c = true) : p c = false := by
  rw [← Char.ofNat_toNat c]
  exact h _ (mem_blankPoints blank)

/-- No name goes over a blank. -/
theorem isNamePart_of_isBlank {c : Char} (blank : isBlank c = true) : isNamePart c = false := by
  refine eq_false_of_isBlank ?_ blank
  simp only [isNamePart, isLetterOrDigit, isLetter, Ranges.contains_eq_any]
  decide +kernel

end Text

/-! ### Words as they are written -/

/-- A character that is written with a backslash in front of another one. -/
inductive Escape : Char → Char → Prop
  | newline : Escape 'n' '\n'
  | tab : Escape 't' '\t'
  | carriageReturn : Escape 'r' '\r'
  | zero : Escape '0' '\x00'
  | backslash : Escape '\\' '\\'
  | singleQuote : Escape '\'' '\''
  | doubleQuote : Escape '"' '"'

/-- A character of a literal between two quotes. The quote, the backslash and the line break have to
be escaped; any other character can stand for itself. -/
inductive Quoted (quote : Char) : Char → List Char → Prop
  | plain {c : Char} (notQuote : c ≠ quote) (notBackslash : c ≠ '\\') (notNewline : c ≠ '\n') :
      Quoted quote c [c]
  | escaped {mark c : Char} (escape : Escape mark c) : Quoted quote c ['\\', mark]

/-- A digit below 16, in either case. -/
def IsHexDigitOf (c : Char) (digit : Nat) : Prop :=
  digit < 16 ∧ (c = digit.digitChar ∨ c = digit.digitChar.toUpper)

namespace TokenKind

/-- How a word can be written. Reals are left out. -/
inductive Spells : TokenKind → List Char → Prop
  | symbol {s : Symbol} (notEnd : s ≠ .endOfFile) (notLine : s ≠ .newline) :
      Spells (.symbol s) s.spelling.toList
  | ident {c : Char} {cs : List Char} (start : c.isAlpha = true ∨ c = '_')
      (parts : ∀ d ∈ cs, d.isAlphanum = true ∨ d = '_')
      (noKeyword : Symbol.ofWord? (String.ofList (c :: cs)) = none) :
      Spells (.ident (String.ofList (c :: cs))) (c :: cs)
  | decimal {c : Char} {cs : List Char} {value : Int64} (first : c.isDigit = true)
      (digits : ∀ d ∈ cs, d.isDigit = true ∨ d = '_')
      (eq : value.toInt = Nat.ofDigitChars 10 (c :: cs.filter (· ≠ '_')) 0) :
      Spells (.int value) (c :: cs)
  | hexadecimal {x : Char} {cs : List Char} {digits : List Nat} {value : Int64}
      (mark : x = 'x' ∨ x = 'X') (nonempty : cs ≠ []) (each : List.Forall₂ IsHexDigitOf cs digits)
      (eq : value.toInt = (Nat.ofDigits 16 digits.reverse : Nat)) :
      Spells (.int value) ('0' :: x :: cs)
  | char {c : Char} {cs : List Char} (quoted : Quoted '\'' c cs) :
      Spells (.char c) ('\'' :: cs ++ ['\''])
  | text {value : List Char} {pieces : List (List Char)}
      (quoted : List.Forall₂ (Quoted '"') value pieces) :
      Spells (.text (String.ofList value)) ('"' :: pieces.flatten ++ ['"'])

/-! What can be written: every text, every character, and every integer that is not negative. -/

theorem exists_quoted {quote : Char} (escaped : ∃ mark, Escape mark quote) (c : Char) :
    ∃ piece, Quoted quote c piece := by
  by_cases h : c = quote
  · obtain ⟨mark, escape⟩ := escaped
    exact ⟨_, .escaped (h ▸ escape)⟩
  by_cases h' : c = '\\'
  · exact ⟨_, .escaped (h' ▸ Escape.backslash)⟩
  by_cases h'' : c = '\n'
  · exact ⟨_, .escaped (h'' ▸ Escape.newline)⟩
  exact ⟨_, .plain h h' h''⟩

theorem exists_spells_char (c : Char) : ∃ word, (char c).Spells word := by
  obtain ⟨piece, quoted⟩ := exists_quoted ⟨_, .singleQuote⟩ c
  exact ⟨_, .char quoted⟩

theorem exists_spells_text (value : String) : ∃ word, (text value).Spells word := by
  have quoted (cs : List Char) : ∃ pieces, List.Forall₂ (Quoted '"') cs pieces := by
    induction cs with
    | nil => exact ⟨[], .nil⟩
    | cons c cs ih =>
      obtain ⟨piece, first⟩ := exists_quoted ⟨_, .doubleQuote⟩ c
      obtain ⟨pieces, rest⟩ := ih
      exact ⟨_, .cons first rest⟩
  obtain ⟨pieces, quoted⟩ := quoted value.toList
  rw [← String.ofList_toList (s := value)]
  exact ⟨_, .text quoted⟩

theorem exists_spells_int {value : Int64} :
    (∃ word, (int value).Spells word) ↔ 0 ≤ value.toInt := by
  constructor
  · rintro ⟨word, spells⟩
    cases spells with
    | decimal _ _ eq => exact eq ▸ Int.natCast_nonneg _
    | hexadecimal _ _ _ eq => exact eq ▸ Int.natCast_nonneg _
  · intro h
    have digits {c : Char} (hc : c ∈ Nat.toDigits 10 value.toInt.toNat) : c.isDigit = true :=
      Nat.isDigit_of_mem_toDigits (by decide) (by decide) hc
    have number : Nat.ofDigitChars 10 (Nat.toDigits 10 value.toInt.toNat) 0 = value.toInt.toNat :=
      Nat.ofDigitChars_toDigits (by decide) (by decide)
    have nonempty : Nat.toDigits 10 value.toInt.toNat ≠ [] := Nat.toDigits_ne_nil
    generalize Nat.toDigits 10 value.toInt.toNat = cs at digits number nonempty
    cases cs with
    | nil => exact absurd rfl nonempty
    | cons c cs =>
      have unmarked : cs.filter (· ≠ '_') = cs := by
        rw [List.filter_eq_self]
        intro d hd
        rw [decide_eq_true_eq]
        rintro rfl
        cases digits (List.mem_cons_of_mem c hd)
      refine ⟨c :: cs, .decimal (digits List.mem_cons_self)
        (fun d hd => .inl (digits (List.mem_cons_of_mem c hd))) ?_⟩
      rw [unmarked, number, Int.toNat_of_nonneg h]

end TokenKind

/-- What has to stand between two words that are written down: a filler that starts with a blank or
a line break. -/
structure Separates (gap : List Char) : Prop where
  filler : Filler gap
  starts : ∃ c rest, gap = c :: rest ∧ Text.isBlank c = true

/-- A word, how it is written, and what separates it from the next word. -/
structure Written where
  kind : TokenKind
  word : List Char
  spells : kind.Spells word
  gap : List Char
  separates : Separates gap

namespace Written

/-- The text of written words. Nothing stands behind the last one. -/
def text : List Written → List Char
  | [] => []
  | [w] => w.word
  | w :: v :: rest => w.word ++ (w.gap ++ text (v :: rest))

/-- The words that are read. A word that can end a statement has a semicolon behind it if there is a
line break between it and the next word, or if it is the last one. -/
def tokens : List Written → List TokenKind
  | [] => []
  | [w] => if w.kind.endsStatement then [w.kind, .symbol .semicolon] else [w.kind]
  | w :: v :: rest =>
    if w.kind.endsStatement && '\n' ∈ w.gap then w.kind :: .symbol .semicolon :: tokens (v :: rest)
    else w.kind :: tokens (v :: rest)

end Written

namespace Lexeme

variable {c : Char} {body rest : List Char}

/-- A blank or nothing at all: no word goes on there. -/
def Stops (rest : List Char) : Prop := ∀ c ∈ rest.head?, Text.isBlank c = true

theorem Stops.head_ne (h : Stops rest) (visible : Text.isBlank c = false) : rest.head? ≠ some c := by
  intro first
  cases visible.symm.trans (h c first)

/-! ### Names and keywords -/

theorem isNamePart_of_isAlphanum (h : c.isAlphanum = true ∨ c = '_') : isNamePart c = true := by
  unfold isNamePart Text.isLetterOrDigit Text.isLetter
  rcases h with h | h
  · rcases Bool.or_eq_true_iff.1 h with h | h <;> simp [h]
  · simp [h]

theorem isNameStart_of_isAlpha (h : c.isAlpha = true ∨ c = '_') : isNameStart c = true := by
  unfold isNameStart Text.isLetter
  rcases h with h | h <;> simp [h]

theorem isDigit_of_isAlpha (h : c.isAlpha = true ∨ c = '_') : c.isDigit = false := by
  rcases h with h | rfl
  · delta Char.isAlpha Char.isUpper Char.isLower at h
    delta Char.isDigit
    simp only [Bool.or_eq_true, Bool.and_eq_true, decide_eq_true_eq, UInt32.le_iff_toNat_le, ge_iff_le, Bool.and_eq_false_iff,
      decide_eq_false_iff_not] at h ⊢
    have upperFirst : 'A'.val.toNat = 65 := rfl
    have lowerFirst : 'a'.val.toNat = 97 := rfl
    have last : '9'.val.toNat = 57 := rfl
    omega
  · rfl

theorem not_startsComment (h : c ≠ '/') (cs : List Char) : ¬ StartsComment c cs :=
  fun starts => h starts.1

theorem isBlank_of_isNamePart (h : isNamePart c = true) : Text.isBlank c = false := by
  by_contra blank
  rw [Bool.not_eq_false] at blank
  cases h.symm.trans (Text.isNamePart_of_isBlank blank)

theorem read_name (start : c.isAlpha = true ∨ c = '_')
    (parts : ∀ d ∈ body, d.isAlphanum = true ∨ d = '_') (stops : Stops rest) :
    read c (body ++ rest) = ⟨.word (wordKind (String.ofList (c :: body))), body.length⟩ := by
  have part : isNamePart c = true :=
    isNamePart_of_isAlphanum (start.imp_left fun h => Bool.or_eq_true_iff.2 (.inl h))
  have slash : c ≠ '/' := by
    rintro rfl
    revert start
    decide
  have run : (body ++ rest).takeWhile isNamePart = body :=
    takeWhile_append_stop (fun d hd => isNamePart_of_isAlphanum (parts d hd)) fun d hd =>
      Text.isNamePart_of_isBlank (stops d hd)
  rw [read_eq_readWord (isBlank_of_isNamePart part) (not_startsComment slash _), readWord,
    isDigit_of_isAlpha start, if_neg Bool.false_ne_true, if_pos (isNameStart_of_isAlpha start),
    readName, run]

theorem read_keyword {s : Symbol} (start : c.isAlpha = true)
    (parts : body.all Char.isAlphanum = true) (stops : Stops rest)
    (keyword : Symbol.ofWord? (String.ofList (c :: body)) = some s) :
    read c (body ++ rest) = ⟨.word (.symbol s), body.length⟩ := by
  have part (d : Char) (hd : d ∈ body) := List.all_eq_true.1 parts d hd
  rw [read_name (.inl start) (fun d hd => .inl (part d hd)) stops, wordKind, keyword]

/-! ### Punctuation and operators -/

theorem readWithEquals_alone {alone joined : Symbol} (stops : Stops rest) :
    readWithEquals alone joined rest = symbol alone 0 :=
  if_neg (stops.head_ne rfl)

theorem read_slash (stops : Stops rest) :
    read '/' rest = ⟨.word (.symbol (.operator .divide)), 0⟩ := by
  rw [read_eq_readWord rfl]
  · rfl
  · rintro ⟨-, next | next⟩
    · exact stops.head_ne rfl next
    · exact stops.head_ne rfl next

theorem read_symbol {s : Symbol} (notEnd : s ≠ .endOfFile) (notLine : s ≠ .newline)
    (stops : Stops rest) : ∃ c body, s.spelling.toList = c :: body ∧
      read c (body ++ rest) = ⟨.word (.symbol s), body.length⟩ := by
  cases s
  case endOfFile => exact absurd rfl notEnd
  case newline => exact absurd rfl notLine
  case importWord | typeWord | constWord | varWord | fnWord | structWord | interfaceWord | strWord
      | returnWord =>
    exact ⟨_, _, rfl, read_keyword rfl rfl stops rfl⟩
  case colon | assign | not => exact ⟨_, [], rfl, readWithEquals_alone stops⟩
  case operator op =>
    cases op
    case divide => exact ⟨_, [], rfl, read_slash stops⟩
    case less | greater => exact ⟨_, [], rfl, readWithEquals_alone stops⟩
    all_goals exact ⟨_, _, rfl, rfl⟩
  all_goals exact ⟨_, _, rfl, rfl⟩

/-! ### Numbers -/

theorem read_digit (digit : c.isDigit = true) (cs : List Char) : read c cs = readNumber c cs := by
  have part : isNamePart c = true := by
    unfold isNamePart Text.isLetterOrDigit
    simp [digit]
  have slash : c ≠ '/' := by
    rintro rfl
    cases digit
  rw [read_eq_readWord (isBlank_of_isNamePart part) (not_startsComment slash _), readWord,
    if_pos digit]

theorem readIntegerValue_eq {value : Int64} {digits : List Char}
    (eq : value.toInt = Nat.ofDigitChars 10 digits 0) :
    readIntegerValue digits = .word (.int value) := by
  have fits : Word.ofInt? (Number.naturalOf digits) = some value := Word.ofInt?_eq_some_iff.2 eq
  rw [readIntegerValue, fits]
  rfl

theorem read_decimal {value : Int64} (first : c.isDigit = true)
    (digits : ∀ d ∈ body, d.isDigit = true ∨ d = '_') (stops : Stops rest)
    (eq : value.toInt = Nat.ofDigitChars 10 (c :: body.filter (· ≠ '_')) 0) :
    read c (body ++ rest) = ⟨.word (.int value), body.length⟩ := by
  have noMark (d : Char) (hd : Text.isBlank d = false) (notDigit : d.isDigit = false)
      (notMark : d ≠ '_') (ds : List Char) : body ++ rest ≠ d :: ds := by
    intro start
    cases body with
    | nil => exact stops.head_ne hd (List.head?_eq_some_iff.2 ⟨ds, start⟩)
    | cons b body =>
      obtain rfl : b = d := (List.cons.inj start).1
      rcases digits b List.mem_cons_self with h | h
      · cases notDigit.symm.trans h
      · exact notMark h
  have number : readNumber c (body ++ rest) = readDecimal c (body ++ rest) := by
    unfold readNumber
    split
    · split
      · rename_i ds start
        exact (noMark _ rfl rfl (by decide) ds start).elim
      · rename_i ds start
        exact (noMark _ rfl rfl (by decide) ds start).elim
      · rfl
    · rfl
  have whole : digitRun (body ++ rest) = body := by
    refine takeWhile_append_stop (fun d hd => ?_) fun d hd => ?_
    · unfold isDigitOrMark
      rcases digits d hd with h | h <;> simp [h]
    · exact Text.eq_false_of_isBlank (by decide) (stops d hd)
  have fraction : fractionRun rest = [] := by
    unfold fractionRun
    split
    · exact (stops.head_ne (c := '.') rfl rfl).elim
    · rfl
  have mark : exponentMark rest = [] := by
    unfold exponentMark
    split
    · exact (stops.head_ne (c := 'e') rfl rfl).elim
    · exact (stops.head_ne (c := 'E') rfl rfl).elim
    · rfl
  have split : Numeral.split (body ++ rest) = ⟨body, [], [], rest⟩ := by
    unfold Numeral.split
    simp [whole, fraction, mark]
  have mantissa : c :: digitsOf body ++ digitsOf [] = c :: body.filter (· ≠ '_') := by
    simp [digitsOf]
  rw [read_digit first, number, Numeral.readDecimal_eq, split, Numeral.read]
  simp only [List.isEmpty_nil, if_true]
  rw [mantissa, readIntegerValue_eq eq]
  rfl

theorem isHexDigit_digitChar : ∀ d < 16,
    (isHexDigit d.digitChar = true ∧ hexDigitValue d.digitChar = d) ∧
      isHexDigit d.digitChar.toUpper = true ∧ hexDigitValue d.digitChar.toUpper = d := by
  decide

theorem isHexDigit_of_isHexDigitOf {digit : Nat} (h : IsHexDigitOf c digit) :
    isHexDigit c = true ∧ hexDigitValue c = digit := by
  obtain ⟨bound, rfl | rfl⟩ := h
  · exact (isHexDigit_digitChar digit bound).1
  · exact (isHexDigit_digitChar digit bound).2

theorem hexDigits_of_each {digits : List Nat} (each : List.Forall₂ IsHexDigitOf body digits) :
    (∀ d ∈ body, isHexDigit d = true) ∧ body.map hexDigitValue = digits := by
  induction each with
  | nil => exact ⟨nofun, rfl⟩
  | cons first _ ih =>
    obtain ⟨digit, value⟩ := isHexDigit_of_isHexDigitOf first
    exact ⟨List.forall_mem_cons.2 ⟨digit, ih.1⟩, by rw [List.map_cons, value, ih.2]⟩

theorem hexValue_eq {digits : List Nat} (each : List.Forall₂ IsHexDigitOf body digits) :
    hexValue body = Nat.ofDigits 16 digits.reverse := by
  rw [← (hexDigits_of_each each).2, Nat.ofDigits_eq_foldr, List.foldr_reverse, List.foldl_map, hexValue]
  congr 1
  funext n c
  exact Nat.add_comm _ _

theorem read_hexadecimal {value : Int64} {x : Char} {digits : List Nat} (mark : x = 'x' ∨ x = 'X')
    (nonempty : body ≠ []) (each : List.Forall₂ IsHexDigitOf body digits) (stops : Stops rest)
    (eq : value.toInt = (Nat.ofDigits 16 digits.reverse : Nat)) :
    read '0' (x :: body ++ rest) = ⟨.word (.int value), (x :: body).length⟩ := by
  have number : readNumber '0' (x :: body ++ rest) = readHex (body ++ rest) := by
    rcases mark with rfl | rfl <;> simp [readNumber]
  have run : (body ++ rest).takeWhile isHexDigit = body := by
    refine takeWhile_append_stop (fun d hd => ?_) fun d hd =>
      Text.eq_false_of_isBlank (by decide) (stops d hd)
    exact (hexDigits_of_each each).1 d hd
  have fits : Word.ofInt? (hexValue body) = some value := by
    rw [Word.ofInt?_eq_some_iff, eq, hexValue_eq each]
  rw [read_digit rfl, number, readHex, run, fits]
  simp [nonempty, wordOr]

/-! ### Literals between quotes -/

theorem escaped?_of_escape {mark : Char} (h : Escape mark c) : escaped? mark = some c := by
  cases h <;> rfl

theorem readTextBody_append {value : List Char} {pieces : List (List Char)}
    (quoted : List.Forall₂ (Quoted '"') value pieces) (rest : List Char) :
    readTextBody (pieces.flatten ++ '"' :: rest) = (.ok value, pieces.flatten.length + 1) := by
  induction quoted with
  | nil => rfl
  | @cons c piece value pieces first _ ih =>
    cases first with
    | plain notQuote notBackslash notNewline =>
      rw [List.flatten_cons, List.cons_append, List.nil_append, List.cons_append,
        readTextBody_plain notQuote notNewline notBackslash, ih]
      rfl
    | escaped escape =>
      rw [List.flatten_cons, List.cons_append, List.cons_append, List.append_assoc,
        List.singleton_append, readTextBody_escape (escaped?_of_escape escape), ih]
      rfl

theorem read_text {value : List Char} {pieces : List (List Char)}
    (quoted : List.Forall₂ (Quoted '"') value pieces) (rest : List Char) :
    read '"' (pieces.flatten ++ ['"'] ++ rest) =
      ⟨.word (.text (String.ofList value)), (pieces.flatten ++ ['"']).length⟩ := by
  rw [read_eq_readWord rfl (not_startsComment (by decide) _), List.append_assoc]
  have body := readTextBody_append quoted rest
  have reads : readWord '"' = readText := rfl
  rw [reads, readText, List.singleton_append, body, List.length_append]
  rfl

theorem read_char {piece : List Char} (quoted : Quoted '\'' c piece) (rest : List Char) :
    read '\'' (piece ++ ['\''] ++ rest) = ⟨.word (.char c), (piece ++ ['\'']).length⟩ := by
  rw [read_eq_readWord rfl (not_startsComment (by decide) _), List.append_assoc]
  have reads : readWord '\'' = readChar := rfl
  rw [reads]
  cases quoted with
  | plain notQuote notBackslash notNewline =>
    simp [readChar, notQuote, notBackslash, notNewline, closeChar]
  | escaped escape => simp [readChar, escaped?_of_escape escape, closeChar]

/-! ### Words -/

/-- A word that is written down is read back, if a blank is behind it or nothing. -/
theorem read_of_spells {kind : TokenKind} {word : List Char} (spells : kind.Spells word)
    (stops : Stops rest) : ∃ c body, word = c :: body ∧
      read c (body ++ rest) = ⟨.word kind, body.length⟩ := by
  cases spells with
  | symbol notEnd notLine => exact read_symbol notEnd notLine stops
  | ident start parts noKeyword =>
    refine ⟨_, _, rfl, ?_⟩
    rw [read_name start parts stops, wordKind, noKeyword]
  | decimal first digits eq => exact ⟨_, _, rfl, read_decimal first digits stops eq⟩
  | hexadecimal mark nonempty each eq =>
    exact ⟨_, _, rfl, read_hexadecimal mark nonempty each stops eq⟩
  | char quoted => exact ⟨_, _, rfl, read_char quoted rest⟩
  | text quoted => exact ⟨_, _, rfl, read_text quoted rest⟩

end Lexeme

theorem Separates.stops {gap : List Char} (h : Separates gap) (text : List Char) :
    Stops (gap ++ text) := by
  obtain ⟨c, rest, rfl, blank⟩ := h.starts
  rintro d ⟨⟩
  exact blank

namespace Stream

theorem kinds_endStatement (w : Token) (done : List Token) (span : Span) :
    (endStatement (w :: done) span).reverse.map (·.kind) = done.reverse.map (·.kind) ++
      if w.kind.endsStatement then [w.kind, .symbol .semicolon] else [w.kind] := by
  rw [endStatement]
  split <;> simp

/-- The words that are written are read behind those that were read before. -/
theorem scan_text (w : Written) (more : List Written) (done : List Token) (place : Position) :
    ∃ s, scan done place (Written.text (w :: more)) = .ok s ∧
      s.ahead.map (·.kind) = done.reverse.map (·.kind) ++ Written.tokens (w :: more) := by
  induction more generalizing w done place with
  | nil =>
    have stops : Stops [] := nofun
    obtain ⟨c, body, eq, read⟩ := read_of_spells w.spells stops
    have word := scan_word done place read
    rw [List.append_nil, ← eq, scan] at word
    exact ⟨_, word, kinds_endStatement _ _ _⟩
  | cons v more ih =>
    obtain ⟨c, body, eq, read⟩ :=
      read_of_spells w.spells (w.separates.stops (Written.text (v :: more)))
    have word := scan_word done place read
    obtain ⟨span, gap⟩ := scan_filler w.separates.filler
      (⟨w.kind, ⟨place, place.after (c :: body)⟩⟩ :: done) (place.after (c :: body))
      (Written.text (v :: more))
    obtain ⟨s, scanned, kinds⟩ := ih v
      (pass w.gap span (⟨w.kind, ⟨place, place.after (c :: body)⟩⟩ :: done))
      ((place.after (c :: body)).after w.gap)
    refine ⟨s, ?_, ?_⟩
    · rw [Written.text, eq, List.cons_append, word, gap, scanned]
    · rw [kinds, Written.tokens]
      by_cases broken : '\n' ∈ w.gap
      · rw [pass, if_pos broken, kinds_endStatement]
        simp only [broken, decide_true, Bool.and_true, List.append_assoc]
        split <;> rfl
      · rw [pass_unbroken broken]
        simp [broken]

/-- Reading undoes writing: the words come back in their order, with a semicolon at the end of each
statement, and then the end of the file. -/
theorem ofText_text (words : List Written) :
    ∃ s, ofText (String.ofList (Written.text words)) = .ok s ∧
      s.tokens.map (·.kind) = Written.tokens words ++ [.symbol .endOfFile] := by
  unfold ofText
  rw [String.toList_ofList]
  cases words with
  | nil =>
    rw [Written.text, scan]
    exact ⟨_, rfl, rfl⟩
  | cons w more =>
    obtain ⟨s, scanned, kinds⟩ := scan_text w more [] .origin
    refine ⟨s, scanned, ?_⟩
    rw [tokens, List.map_append, kinds]
    rfl

end Stream

end FrontEnd
