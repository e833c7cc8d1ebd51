import FrontEnd.Token.Stream
import Mathlib.Data.List.TakeWhile

/-!
A word that stands in a text is read alike where it stands alone: what is behind a word decides where
it ends, but not what it is.
-/

namespace FrontEnd

namespace Lexeme

/-- The first `n` characters are a word of this kind, whatever may stand behind them. -/
structure Heads (read : List Char → Lexeme) (cs : List Char) (kind : TokenKind) (n : Nat) : Prop where
  found : read cs = ⟨.word kind, n⟩
  alone : read (cs.take n) = ⟨.word kind, n⟩
  bound : n ≤ cs.length

/-- Every word that is read is read alike where it stands alone. -/
def IsLocal (read : List Char → Lexeme) : Prop :=
  ∀ cs kind n, read cs = ⟨.word kind, n⟩ → Heads read cs kind n

variable {p : Char → Bool} {cs ds : List Char}

theorem take_length_takeWhile (p : Char → Bool) (cs : List Char) :
    cs.take (cs.takeWhile p).length = cs.takeWhile p :=
  (List.prefix_iff_eq_take.1 (List.takeWhile_prefix p)).symm

theorem length_takeWhile_le (p : Char → Bool) (cs : List Char) :
    (cs.takeWhile p).length ≤ cs.length :=
  (List.takeWhile_prefix p).length_le

/-- A run goes up to the first character that does not belong to it. -/
theorem takeWhile_append_stop (h : ∀ c ∈ cs, p c = true) (stop : ∀ c ∈ ds.head?, p c = false) :
    (cs ++ ds).takeWhile p = cs := by
  rw [List.takeWhile_append_of_pos h]
  cases ds with
  | nil => simp
  | cons d ds =>
    have first : p d = false := stop d rfl
    simp [first]

theorem takeWhile_take {n : Nat} (h : (cs.takeWhile p).length ≤ n) :
    (cs.take n).takeWhile p = cs.takeWhile p := by
  induction cs generalizing n with
  | nil => simp
  | cons c cs ih =>
    rw [List.takeWhile_cons] at h ⊢
    split at h
    · rename_i hc
      obtain ⟨m, rfl⟩ : ∃ m, n = m + 1 := Nat.exists_eq_succ_of_ne_zero (by rintro rfl; cases h)
      rw [List.take_succ_cons, List.takeWhile_cons, if_pos hc, if_pos hc,
        ih (Nat.le_of_succ_le_succ h)]
    · rename_i hc
      rw [if_neg hc]
      cases n with
      | zero => rfl
      | succ n => rw [List.take_succ_cons, List.takeWhile_cons, if_neg hc]

/-! ### Numbers -/

theorem heads_readHex {kind : TokenKind} {n : Nat} (h : readHex cs = ⟨.word kind, n⟩) :
    ∃ m, n = m + 1 ∧ m ≤ cs.length ∧ readHex (cs.take m) = ⟨.word kind, n⟩ := by
  have length : n = (cs.takeWhile isHexDigit).length + 1 := by
    unfold readHex at h
    dsimp only at h
    split at h <;> exact (congrArg Lexeme.length h).symm
  refine ⟨_, length, length_takeWhile_le _ _, ?_⟩
  rw [← h]
  unfold readHex
  rw [takeWhile_take (Nat.le_refl _)]

theorem fractionRun_take {n : Nat} (h : (fractionRun cs).length ≤ n) :
    fractionRun (cs.take n) = fractionRun cs := by
  unfold fractionRun at h
  split at h
  · rename_i c rest
    split at h
    · rename_i hc
      obtain ⟨m, rfl⟩ : ∃ m, n = m + 2 := ⟨n - 2, by simp only [List.length_cons] at h; omega⟩
      simp only [List.length_cons, Nat.add_le_add_iff_right] at h
      rw [List.take_succ_cons, List.take_succ_cons, fractionRun, fractionRun, if_pos hc, if_pos hc]
      unfold digitRun at *
      rw [takeWhile_take h]
    · rename_i hc
      rcases n with _ | _ | n
      · simp [fractionRun, hc]
      · simp [fractionRun, hc]
      · simp [fractionRun, hc]
  · rename_i other
    have other' : ∀ c rest, cs.take n = '.' :: c :: rest → False := by
      intro c rest he
      have whole := List.take_append_drop n cs
      rw [he] at whole
      exact other c _ whole.symm
    unfold fractionRun
    split
    · rename_i c rest he
      exact (other' c rest he).elim
    · rfl

/-- Behind its letter, the mark of an exponent is decided by one character. -/
theorem exponentMark_cons (c d : Char) (cs ds : List Char) :
    exponentMark (c :: d :: cs) = exponentMark (c :: d :: ds) := by
  by_cases letter : c = 'e' ∨ c = 'E'
  · by_cases plus : d = '+'
    · subst plus
      rcases letter with rfl | rfl <;> rfl
    by_cases minus : d = '-'
    · subst minus
      rcases letter with rfl | rfl <;> rfl
    rcases letter with rfl | rfl <;> simp [exponentMark, plus, minus]
  · rw [not_or] at letter
    simp [exponentMark, letter]

theorem exponentMark_take {n : Nat} (h : (exponentMark cs).length ≤ n) :
    exponentMark (cs.take n) = exponentMark cs := by
  rcases cs with _ | ⟨c, _ | ⟨d, cs⟩⟩
  · simp
  · rcases n with _ | n
    · rw [List.take_zero, List.eq_nil_of_length_eq_zero (Nat.le_zero.1 h)]
      rfl
    · simp
  · rcases n with _ | _ | n
    · rw [List.take_zero, List.eq_nil_of_length_eq_zero (Nat.le_zero.1 h)]
      rfl
    · rw [List.take_succ_cons, List.take_zero]
      -- One character is taken, so the mark has no sign.
      by_cases letter : c = 'e' ∨ c = 'E'
      · have plus : d ≠ '+' := by rintro rfl; rcases letter with rfl | rfl <;> simp [exponentMark] at h
        have minus : d ≠ '-' := by rintro rfl; rcases letter with rfl | rfl <;> simp [exponentMark] at h
        rcases letter with rfl | rfl <;> simp [exponentMark, plus, minus]
      · rw [not_or] at letter
        simp [exponentMark, letter]
    · exact exponentMark_cons c d _ cs

theorem length_fractionRun_le (cs : List Char) : (fractionRun cs).length ≤ cs.length := by
  unfold fractionRun
  split
  · rename_i c rest
    split
    · have run := length_takeWhile_le isDigitOrMark rest
      simpa [digitRun] using run
    · exact Nat.zero_le _
  · exact Nat.zero_le _

theorem length_exponentMark_le (cs : List Char) : (exponentMark cs).length ≤ cs.length := by
  unfold exponentMark
  split
  · split <;> simp
  · split <;> simp
  · exact Nat.zero_le _

/-- The parts of a decimal number behind its first digit, and what is behind the mark of its
exponent. -/
structure Numeral where
  whole : List Char
  fraction : List Char
  mark : List Char
  behind : List Char

namespace Numeral

def split (cs : List Char) : Numeral :=
  let whole := digitRun cs
  let behindWhole := cs.drop whole.length
  let fraction := fractionRun behindWhole
  let behindFraction := behindWhole.drop fraction.length
  let mark := exponentMark behindFraction
  ⟨whole, fraction, mark, behindFraction.drop mark.length⟩

/-- The length of the parts. -/
def length (n : Numeral) : Nat := n.whole.length + n.fraction.length + n.mark.length

theorem split_take {n : Nat} (h : (split cs).length ≤ n) :
    split (cs.take n) = { split cs with behind := (split cs).behind.take (n - (split cs).length) } := by
  unfold length split at *
  dsimp only at *
  have whole : digitRun (cs.take n) = digitRun cs := takeWhile_take (by unfold digitRun at h; omega)
  rw [whole, List.drop_take, fractionRun_take (by omega), List.drop_take,
    exponentMark_take (by omega), List.drop_take, Nat.sub_sub, Nat.sub_sub, Nat.add_assoc]

theorem length_add_behind (cs : List Char) :
    (split cs).length + (split cs).behind.length = cs.length := by
  have whole : (digitRun cs).length ≤ cs.length := length_takeWhile_le _ _
  have fraction := length_fractionRun_le (cs.drop (digitRun cs).length)
  have mark := length_exponentMark_le
    ((cs.drop (digitRun cs).length).drop (fractionRun (cs.drop (digitRun cs).length)).length)
  unfold length split
  simp only [List.length_drop] at *
  omega

/-- What a decimal number is, by its parts. -/
def read (c : Char) (n : Numeral) : Lexeme :=
  let mantissa := c :: digitsOf n.whole ++ digitsOf n.fraction
  if n.mark.isEmpty then
    if n.fraction.isEmpty then ⟨readIntegerValue mantissa, n.length⟩
    else ⟨readRealValue mantissa, n.length⟩
  else
    match n.behind with
    | d :: rest =>
      if d.isDigit then
        let exponent := digitRun rest
        ⟨readRealValue (mantissa ++ n.mark ++ d :: digitsOf exponent),
          n.length + 1 + exponent.length⟩
      else ⟨.faulty .exponentWithoutDigits, n.length⟩
    | [] => ⟨.faulty .exponentWithoutDigits, n.length⟩

theorem readDecimal_eq (c : Char) (cs : List Char) : readDecimal c cs = (split cs).read c := rfl

end Numeral

theorem isLocal_readDecimal (c : Char) : IsLocal (readDecimal c) := by
  intro cs kind n h
  have found := h
  have total := Numeral.length_add_behind cs
  rw [Numeral.readDecimal_eq, Numeral.read] at h
  dsimp only at h
  split at h
  · rename_i unmarked
    obtain rfl : n = (Numeral.split cs).length := by
      split at h <;> exact (congrArg Lexeme.length h).symm
    refine ⟨found, ?_, by omega⟩
    rw [← h, Numeral.readDecimal_eq, Numeral.split_take (Nat.le_refl _), Numeral.read]
    exact if_pos unmarked
  · rename_i marked
    cases behind : (Numeral.split cs).behind with
    | nil =>
      rw [behind] at h
      cases congrArg Lexeme.content h
    | cons d rest =>
      rw [behind] at h total
      dsimp only at h
      split at h
      · rename_i hd
        have run := length_takeWhile_le isDigitOrMark rest
        have length : (Numeral.split cs).length + 1 + (digitRun rest).length = n :=
          congrArg Lexeme.length h
        rw [List.length_cons] at total
        refine ⟨found, ?_, by unfold digitRun at length; omega⟩
        rw [← h, Numeral.readDecimal_eq, Numeral.split_take (by omega), Numeral.read]
        have left : n - (Numeral.split cs).length = (digitRun rest).length + 1 := by omega
        rw [behind, left, List.take_succ_cons]
        dsimp only
        rw [if_neg marked, if_pos hd, digitRun, digitRun, takeWhile_take (Nat.le_refl _)]
        rfl
      · cases congrArg Lexeme.content h

theorem isLocal_readNumber (c : Char) : IsLocal (readNumber c) := by
  intro cs kind n h
  by_cases zero : c = '0'
  · subst zero
    by_cases hex : ∃ x rest, (x = 'x' ∨ x = 'X') ∧ cs = x :: rest
    · obtain ⟨x, rest, hx, rfl⟩ := hex
      have read (ds : List Char) : readNumber '0' (x :: ds) = readHex ds := by
        rcases hx with rfl | rfl <;> simp [readNumber]
      rw [read] at h
      obtain ⟨m, rfl, bound, alone⟩ := heads_readHex h
      refine ⟨(read rest).trans h, ?_, Nat.succ_le_succ bound⟩
      rw [List.take_succ_cons, read, alone]
    · have read (ds : List Char) (hd : ds <+: cs) : readNumber '0' ds = readDecimal '0' ds := by
        unfold readNumber
        rw [if_pos rfl]
        split
        · rename_i rest
          obtain ⟨more, rfl⟩ := hd
          exact (hex ⟨_, _, .inl rfl, rfl⟩).elim
        · rename_i rest
          obtain ⟨more, rfl⟩ := hd
          exact (hex ⟨_, _, .inr rfl, rfl⟩).elim
        · rfl
      rw [read cs List.prefix_rfl] at h
      obtain ⟨_, alone, bound⟩ := isLocal_readDecimal '0' cs kind n h
      exact ⟨(read cs List.prefix_rfl).trans h, (read _ (List.take_prefix n cs)).trans alone, bound⟩
  · have read (ds : List Char) : readNumber c ds = readDecimal c ds := if_neg zero
    rw [read] at h
    obtain ⟨_, alone, bound⟩ := isLocal_readDecimal c cs kind n h
    exact ⟨(read cs).trans h, (read _).trans alone, bound⟩

/-! ### Names, texts and characters -/

theorem isLocal_readName (c : Char) : IsLocal (readName c) := by
  intro cs kind n h
  have length : (cs.takeWhile isNamePart).length = n := congrArg Lexeme.length h
  subst length
  refine ⟨h, ?_, length_takeWhile_le _ _⟩
  rw [← h, readName, readName, takeWhile_take (Nat.le_refl _)]

/-- A character that stands for itself in a string. -/
theorem readTextBody_plain {c : Char} (quote : c ≠ '"') (newline : c ≠ '\n')
    (backslash : c ≠ '\\') (cs : List Char) :
    readTextBody (c :: cs) = ((readTextBody cs).1.map (c :: ·), (readTextBody cs).2 + 1) := by
  rw [readTextBody]
  · exact quote
  · exact newline
  · exact fun h => (backslash h).elim
  · exact fun _ _ h => (backslash h).elim

/-- A character that is written with a backslash. -/
theorem readTextBody_escape {c e : Char} (h : escaped? c = some e) (cs : List Char) :
    readTextBody ('\\' :: c :: cs) = ((readTextBody cs).1.map (e :: ·), (readTextBody cs).2 + 2) := by
  rw [readTextBody, h]

theorem exists_of_map_ok {α β : Type} {f : α → β} {x : Except Cause α} {v : β}
    (h : x.map f = .ok v) : ∃ w, x = .ok w ∧ v = f w := by
  cases x with
  | ok w =>
    cases h
    exact ⟨w, rfl, rfl⟩
  | error => cases h

theorem readTextBody_take {body : List Char} {n : Nat} (h : readTextBody cs = (.ok body, n)) :
    readTextBody (cs.take n) = (.ok body, n) ∧ n ≤ cs.length := by
  induction cs using readTextBody.induct generalizing body n with
  | case1 => cases h
  | case2 cs =>
    cases h
    exact ⟨rfl, Nat.succ_le_succ (Nat.zero_le _)⟩
  | case3 => cases h
  | case4 => cases h
  | case5 c cs e he body' n' hr ih =>
    rw [readTextBody_escape he, hr] at h
    obtain ⟨value, rfl, rfl⟩ := exists_of_map_ok (congrArg Prod.fst h)
    cases h
    obtain ⟨alone, bound⟩ := ih hr
    refine ⟨?_, by simpa using bound⟩
    rw [List.take_succ_cons, List.take_succ_cons, readTextBody_escape he, alone]
    rfl
  | case6 c cs he =>
    rw [readTextBody, he] at h
    cases h
  | case7 c cs quote newline last escape body' n' hr ih =>
    have backslash : c ≠ '\\' := fun he => by
      cases cs with
      | nil => exact last he rfl
      | cons d ds => exact escape d ds he rfl
    rw [readTextBody_plain quote newline backslash, hr] at h
    obtain ⟨value, rfl, rfl⟩ := exists_of_map_ok (congrArg Prod.fst h)
    cases h
    obtain ⟨alone, bound⟩ := ih hr
    refine ⟨?_, by simpa using bound⟩
    rw [List.take_succ_cons, readTextBody_plain quote newline backslash, alone]
    rfl

theorem isLocal_readText : IsLocal readText := by
  intro cs kind n h
  have found := h
  unfold readText at h
  split at h
  · rename_i body m hb
    obtain rfl : m = n := congrArg Lexeme.length h
    obtain ⟨alone, bound⟩ := readTextBody_take hb
    refine ⟨found, ?_, bound⟩
    rw [readText, alone]
    exact h
  · cases congrArg Lexeme.content h

theorem closeChar_eq_word {value : Char} {m n : Nat} {kind : TokenKind}
    (h : closeChar value m cs = ⟨.word kind, n⟩) : ∃ rest, cs = '\'' :: rest ∧ n = m + 1 := by
  unfold closeChar at h
  split at h
  · exact ⟨_, rfl, (congrArg Lexeme.length h).symm⟩
  · cases congrArg Lexeme.content h
  · cases congrArg Lexeme.content h

theorem isLocal_readChar : IsLocal readChar := by
  intro cs kind n h
  have found := h
  unfold readChar at h
  split at h
  · cases congrArg Lexeme.content h
  · cases congrArg Lexeme.content h
  · split at h
    · rename_i value he
      obtain ⟨rest, rfl, rfl⟩ := closeChar_eq_word h
      refine ⟨found, ?_, by simp⟩
      rw [← found]
      simp [readChar, he, closeChar]
    · cases congrArg Lexeme.content h
  · split at h
    · cases congrArg Lexeme.content h
    · rename_i c ds last escape hc
      obtain ⟨rest, rfl, rfl⟩ := closeChar_eq_word h
      refine ⟨found, ?_, by simp⟩
      rw [← found]
      have backslash : c ≠ '\\' := fun h => escape _ _ h rfl
      simp [readChar, closeChar, backslash, hc]

/-! ### Symbols -/

theorem isLocal_readWithEquals (alone joined : Symbol) : IsLocal (readWithEquals alone joined) := by
  intro cs kind n h
  have found := h
  unfold readWithEquals at h
  split at h
  · rename_i equals
    obtain rfl : 1 = n := congrArg Lexeme.length h
    obtain ⟨rest, rfl⟩ := List.head?_eq_some_iff.1 equals
    exact ⟨found, h, by simp⟩
  · obtain rfl : 0 = n := congrArg Lexeme.length h
    exact ⟨found, h, Nat.zero_le _⟩

theorem isLocal_readLogical (c : Char) (op : Operator) : IsLocal (readLogical c op) := by
  intro cs kind n h
  have found := h
  unfold readLogical at h
  split at h
  · rename_i twice
    obtain rfl : 1 = n := congrArg Lexeme.length h
    obtain ⟨rest, rfl⟩ := List.head?_eq_some_iff.1 twice
    refine ⟨found, ?_, by simp⟩
    rw [← found, readLogical, readLogical, List.take_succ_cons]
    rfl
  · cases congrArg Lexeme.content h

theorem isLocal_symbol (s : Symbol) : IsLocal fun _ => symbol s 0 := by
  intro cs kind n h
  obtain rfl : 0 = n := congrArg Lexeme.length h
  exact ⟨h, h, Nat.zero_le _⟩

theorem isLocal_readSymbol (c : Char) : IsLocal (readSymbol c) := by
  unfold readSymbol
  split <;> first
    | exact isLocal_symbol _
    | exact isLocal_readWithEquals _ _
    | exact isLocal_readLogical _ _
    | exact fun cs kind n h => nomatch congrArg Lexeme.content h

/-! ### Words -/

/-- The word that starts with `c`, which is no blank and starts no comment. -/
def readWord (c : Char) : List Char → Lexeme :=
  if c.isDigit then readNumber c
  else if isNameStart c then readName c
  else if c = '"' then readText
  else if c = '\'' then readChar
  else readSymbol c

/-- A slash with another slash or a star behind it starts a comment. -/
def StartsComment (c : Char) (cs : List Char) : Prop :=
  c = '/' ∧ (cs.head? = some '/' ∨ cs.head? = some '*')

theorem isLocal_readWord (c : Char) : IsLocal (readWord c) := by
  unfold readWord
  split
  · exact isLocal_readNumber c
  split
  · exact isLocal_readName c
  split
  · exact isLocal_readText
  split
  · exact isLocal_readChar
  · exact isLocal_readSymbol c

variable {c : Char}

theorem isBlank_newline : Text.isBlank '\n' = true := by
  decide

theorem read_eq_readWord (blank : Text.isBlank c = false) (comment : ¬ StartsComment c cs) :
    read c cs = readWord c cs := by
  have newline : c ≠ '\n' := by
    rintro rfl
    cases blank.symm.trans isBlank_newline
  unfold StartsComment at comment
  unfold read readWord
  rw [if_neg newline, blank, if_neg Bool.false_ne_true, if_neg, if_neg]
  · split
    · rfl
    split
    · rfl
    split
    · rfl
    split <;> rfl
  · simp only [Bool.and_eq_true, decide_eq_true_eq]
    exact fun h => comment ⟨h.1, .inr h.2⟩
  · simp only [Bool.and_eq_true, decide_eq_true_eq]
    exact fun h => comment ⟨h.1, .inl h.2⟩

/-- Neither a blank nor a comment is a word. -/
theorem of_read_eq_word {kind : TokenKind} {n : Nat} (h : read c cs = ⟨.word kind, n⟩) :
    Text.isBlank c = false ∧ ¬ StartsComment c cs := by
  unfold read at h
  split at h
  · cases congrArg Lexeme.content h
  split at h
  · cases congrArg Lexeme.content h
  rename_i blank
  refine ⟨Bool.eq_false_iff.2 blank, ?_⟩
  rintro ⟨rfl, next | next⟩
  · rw [next] at h
    cases congrArg Lexeme.content h
  · rw [next] at h
    have comment : readComment (cs.drop 1) = ⟨.word kind, n⟩ := h
    unfold readComment at comment
    split at comment
    · have content := congrArg Lexeme.content comment
      dsimp only at content
      split at content <;> cases content
    · cases congrArg Lexeme.content comment

theorem isLocal_read (c : Char) : IsLocal (read c) := by
  intro cs kind n h
  obtain ⟨blank, comment⟩ := of_read_eq_word h
  have found := h
  rw [read_eq_readWord blank comment] at h
  obtain ⟨_, alone, bound⟩ := isLocal_readWord c cs kind n h
  refine ⟨found, ?_, bound⟩
  -- What does not start a comment does not start one without what is behind it.
  rw [read_eq_readWord blank, alone]
  rintro ⟨slash, next⟩
  refine comment ⟨slash, next.imp ?_ ?_⟩ <;>
  · intro first
    cases n with
    | zero => cases first
    | succ n => rwa [List.head?_take, if_neg (Nat.succ_ne_zero n)] at first

/-! ### What a word can be -/

/-- The end of the text and that of a line are no words of their own. -/
inductive Content.Proper : Content → Prop
  | word {kind : TokenKind} (notEnd : kind ≠ .symbol .endOfFile) (notLine : kind ≠ .symbol .newline) :
      Proper (.word kind)
  | faulty (cause : Cause) : Proper (.faulty cause)

theorem proper_wordOr {cause : Cause} {kind? : Option TokenKind}
    (h : ∀ kind ∈ kind?, ∀ s, kind ≠ .symbol s) : (wordOr cause kind?).Proper := by
  cases kind? with
  | none => exact .faulty cause
  | some kind => exact .word (h kind rfl _) (h kind rfl _)

theorem proper_readIntegerValue (text : List Char) : (readIntegerValue text).Proper :=
  proper_wordOr fun kind hk s he => by
    obtain ⟨value, _, rfl⟩ := Option.map_eq_some_iff.1 hk
    cases he

theorem proper_readRealValue (text : List Char) : (readRealValue text).Proper :=
  proper_wordOr fun kind hk s he => by
    obtain ⟨value, _, rfl⟩ := Option.map_eq_some_iff.1 hk
    cases he

theorem proper_readHex (cs : List Char) : (readHex cs).content.Proper := by
  unfold readHex
  dsimp only
  split
  · exact .faulty _
  · dsimp only
    refine proper_wordOr fun kind hk s he => ?_
    obtain ⟨value, _, rfl⟩ := Option.map_eq_some_iff.1 hk
    cases he

theorem proper_readDecimal (c : Char) (cs : List Char) : (readDecimal c cs).content.Proper := by
  rw [Numeral.readDecimal_eq, Numeral.read]
  dsimp only
  split
  · split
    · dsimp only
      exact proper_readIntegerValue _
    · dsimp only
      exact proper_readRealValue _
  · split
    · split
      · dsimp only
        exact proper_readRealValue _
      · exact .faulty _
    · exact .faulty _

theorem proper_readNumber (c : Char) (cs : List Char) : (readNumber c cs).content.Proper := by
  unfold readNumber
  split
  · split
    · exact proper_readHex _
    · exact proper_readHex _
    · exact proper_readDecimal _ _
  · exact proper_readDecimal _ _

theorem proper_readName (c : Char) (cs : List Char) : (readName c cs).content.Proper := by
  have keyword : ∀ s ∈ Symbol.ofWord? (String.ofList (c :: cs.takeWhile isNamePart)),
      s ≠ .endOfFile ∧ s ≠ .newline := by
    intro s hs
    have member := List.mem_of_find?_eq_some hs
    constructor <;> rintro rfl <;> simp at member
  unfold readName
  dsimp only
  unfold wordKind
  split
  · rename_i s hs
    obtain ⟨notEnd, notLine⟩ := keyword s hs
    exact .word (fun he => notEnd (TokenKind.symbol.inj he)) fun he => notLine (TokenKind.symbol.inj he)
  · exact .word nofun nofun

theorem proper_readText (cs : List Char) : (readText cs).content.Proper := by
  unfold readText
  split
  · exact .word nofun nofun
  · exact .faulty _

theorem proper_readChar (cs : List Char) : (readChar cs).content.Proper := by
  have close (value : Char) (n : Nat) (cs : List Char) : (closeChar value n cs).content.Proper := by
    unfold closeChar
    split
    · exact .word nofun nofun
    · exact .faulty _
    · exact .faulty _
  unfold readChar
  split
  · exact .faulty _
  · exact .faulty _
  · split
    · exact close _ _ _
    · exact .faulty _
  · split
    · exact .faulty _
    · exact close _ _ _

theorem proper_readSymbol (c : Char) (cs : List Char) : (readSymbol c cs).content.Proper := by
  unfold readSymbol
  split
  case h_16 | h_17 | h_18 | h_19 | h_20 =>
    unfold readWithEquals
    split <;> exact .word (by simp) (by simp)
  case h_21 | h_22 =>
    unfold readLogical
    split
    · exact .word (by simp) (by simp)
    · exact .faulty _
  case h_23 => exact .faulty _
  all_goals exact .word (by simp) (by simp)

theorem proper_readWord (c : Char) (cs : List Char) : (readWord c cs).content.Proper := by
  unfold readWord
  split
  · exact proper_readNumber c cs
  split
  · exact proper_readName c cs
  split
  · exact proper_readText cs
  split
  · exact proper_readChar cs
  · exact proper_readSymbol c cs

end Lexeme

namespace Stream

open Lexeme

/-- The word that starts with `c` is the first one of the text that holds nothing else. -/
theorem ofText_word {c : Char} {cs : List Char} {kind : TokenKind} {n : Nat}
    (h : read c cs = ⟨.word kind, n⟩) :
    ∃ s, ofText (String.ofList (c :: cs.take n)) = .ok s ∧
      s.ahead.head? = some ⟨kind, ⟨.origin, .after .origin (c :: cs.take n)⟩⟩ := by
  obtain ⟨_, alone, bound⟩ := isLocal_read c cs kind n h
  have length : (cs.take n).length = n := List.length_take_of_le bound
  unfold ofText
  rw [String.toList_ofList, scan, alone]
  dsimp only
  rw [List.take_of_length_le (Nat.le_of_eq length), List.drop_of_length_le (Nat.le_of_eq length),
    scan]
  refine ⟨_, rfl, ?_⟩
  dsimp only
  rw [endStatement]
  split <;> rfl

end Stream

end FrontEnd
