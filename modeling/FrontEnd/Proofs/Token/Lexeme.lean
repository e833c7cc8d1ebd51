import FrontEnd.Token.Stream

/-!
What can be wrong with the words of a text. Every fault that is found while words are read is one of
grammar.
-/

namespace FrontEnd

namespace Lexeme

/-- What is wrong with the lexeme, if anything is, is a matter of grammar. -/
def IsGrammatical (l : Lexeme) : Prop :=
  ∀ cause, l.content = .faulty cause → cause.category = .grammar

theorem isGrammatical_word (kind : TokenKind) (length : Nat) :
    IsGrammatical ⟨.word kind, length⟩ := nofun

theorem isGrammatical_faulty {cause : Cause} (h : cause.category = .grammar) (length : Nat) :
    IsGrammatical ⟨.faulty cause, length⟩ := by
  rintro _ ⟨⟩
  exact h

theorem isGrammatical_wordOr {cause : Cause} (h : cause.category = .grammar)
    (kind? : Option TokenKind) (length : Nat) : IsGrammatical ⟨wordOr cause kind?, length⟩ := by
  cases kind? with
  | none => exact isGrammatical_faulty h length
  | some kind => exact isGrammatical_word kind length

theorem isGrammatical_readComment (cs : List Char) : (readComment cs).IsGrammatical := by
  unfold readComment
  split
  · intro cause h
    split at h <;> cases h
  · exact isGrammatical_faulty rfl _

/-! ### Numbers -/

theorem isGrammatical_readHex (cs : List Char) : (readHex cs).IsGrammatical := by
  unfold readHex
  dsimp only
  split
  · exact isGrammatical_faulty rfl _
  · exact isGrammatical_wordOr rfl _ _

theorem isGrammatical_readDecimal (c : Char) (cs : List Char) :
    (readDecimal c cs).IsGrammatical := by
  unfold readDecimal
  dsimp only
  split
  · split
    · exact isGrammatical_wordOr rfl _ _
    · exact isGrammatical_wordOr rfl _ _
  · split
    · split
      · exact isGrammatical_wordOr rfl _ _
      · exact isGrammatical_faulty rfl _
    · exact isGrammatical_faulty rfl _

theorem isGrammatical_readNumber (c : Char) (cs : List Char) :
    (readNumber c cs).IsGrammatical := by
  unfold readNumber
  split
  · split
    · exact isGrammatical_readHex _
    · exact isGrammatical_readHex _
    · exact isGrammatical_readDecimal _ _
  · exact isGrammatical_readDecimal _ _

/-! ### Texts and characters -/

theorem error_of_map {α β : Type} {f : α → β} {x : Except Cause α} {cause : Cause}
    (h : x.map f = .error cause) : x = .error cause := by
  cases x with
  | ok v => cases h
  | error other => exact congrArg Except.error (Except.error.inj h)

theorem category_of_readTextBody {cs : List Char} {cause : Cause}
    (h : (readTextBody cs).1 = .error cause) : cause.category = .grammar := by
  induction cs using readTextBody.induct with
  | case1 => cases h; rfl
  | case2 => cases h
  | case3 => cases h; rfl
  | case4 => cases h; rfl
  | case5 c cs e he body n hr ih =>
    rw [readTextBody, he] at h
    exact ih (error_of_map h)
  | case6 c cs he =>
    rw [readTextBody, he] at h
    cases h
    rfl
  | case7 c cs h₁ h₂ h₃ h₄ body n hr ih =>
    rw [readTextBody] at h
    · exact ih (error_of_map h)
    all_goals assumption

theorem isGrammatical_readText (cs : List Char) : (readText cs).IsGrammatical := by
  unfold readText
  split
  · exact isGrammatical_word _ _
  · rename_i cause n hr
    exact isGrammatical_faulty (category_of_readTextBody (by rw [hr])) _

theorem isGrammatical_closeChar (value : Char) (n : Nat) (cs : List Char) :
    (closeChar value n cs).IsGrammatical := by
  unfold closeChar
  split
  · exact isGrammatical_word _ _
  · exact isGrammatical_faulty rfl _
  · exact isGrammatical_faulty rfl _

theorem isGrammatical_readChar (cs : List Char) : (readChar cs).IsGrammatical := by
  unfold readChar
  split
  · exact isGrammatical_faulty rfl _
  · exact isGrammatical_faulty rfl _
  · split
    · exact isGrammatical_closeChar _ _ _
    · exact isGrammatical_faulty rfl _
  · split
    · exact isGrammatical_faulty rfl _
    · exact isGrammatical_closeChar _ _ _

/-! ### Symbols -/

theorem isGrammatical_symbol (s : Symbol) (length : Nat) : (symbol s length).IsGrammatical :=
  isGrammatical_word _ _

theorem isGrammatical_readWithEquals (alone joined : Symbol) (cs : List Char) :
    (readWithEquals alone joined cs).IsGrammatical := by
  unfold readWithEquals
  split <;> exact isGrammatical_symbol _ _

theorem isGrammatical_readLogical (c : Char) (op : Operator) (cs : List Char) :
    (readLogical c op cs).IsGrammatical := by
  unfold readLogical
  split
  · exact isGrammatical_symbol _ _
  · exact isGrammatical_faulty rfl _

theorem isGrammatical_readSymbol (c : Char) (cs : List Char) :
    (readSymbol c cs).IsGrammatical := by
  unfold readSymbol
  split <;> first
    | exact isGrammatical_symbol _ _
    | exact isGrammatical_readWithEquals _ _ _
    | exact isGrammatical_readLogical _ _ _
    | exact isGrammatical_faulty rfl _

theorem isGrammatical_read (c : Char) (cs : List Char) : (read c cs).IsGrammatical := by
  unfold read
  split
  · nofun
  split
  · nofun
  split
  · nofun
  split
  · exact isGrammatical_readComment _
  split
  · exact isGrammatical_readNumber _ _
  split
  · exact isGrammatical_word _ _
  split
  · exact isGrammatical_readText _
  split
  · exact isGrammatical_readChar _
  · exact isGrammatical_readSymbol _ _

end Lexeme

namespace Stream

theorem category_of_scan {done : List Token} {place : Position} {text : List Char} {fault : Fault}
    (h : scan done place text = .error fault) : fault.cause.category = .grammar := by
  induction done, place, text using scan.induct with
  | case1 => rw [scan] at h; cases h
  | case2 done place c cs lexeme next rest hc ih =>
    rw [scan] at h
    simp only [lexeme] at hc
    simp only [hc] at h
    exact ih h
  | case3 done place c cs lexeme next rest hc ih =>
    rw [scan] at h
    simp only [lexeme] at hc
    simp only [hc] at h
    exact ih h
  | case4 done place c cs lexeme next rest kind hc ih =>
    rw [scan] at h
    simp only [lexeme] at hc
    simp only [hc] at h
    exact ih h
  | case5 done place c cs lexeme cause hc =>
    rw [scan] at h
    simp only [lexeme] at hc
    simp only [hc] at h
    cases h
    exact Lexeme.isGrammatical_read c cs cause hc

end Stream

end FrontEnd
