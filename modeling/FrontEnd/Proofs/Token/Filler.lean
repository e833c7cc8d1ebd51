import FrontEnd.Proofs.Token.Word
import FrontEnd.Proofs.Source.Position
import Mathlib.Data.List.Infix

/-!
What can stand between two words: blanks, line breaks and comments. A filler with a line break in it,
be it inside a comment, ends a statement if the word before it can.
-/

namespace FrontEnd

open Lexeme

/-- Blanks, line breaks and complete comments. A comment up to the end of its line is complete where
the line ends. -/
inductive Filler : List Char → Prop
  | nil : Filler []
  | blank {c : Char} {cs : List Char} (blank : Text.isBlank c = true) (rest : Filler cs) :
      Filler (c :: cs)
  | line {body cs : List Char} (unbroken : '\n' ∉ body) (rest : Filler ('\n' :: cs)) :
      Filler ('/' :: '/' :: (body ++ '\n' :: cs))
  | comment {body cs : List Char} (unclosed : ¬ ['*', '/'] <:+: body) (rest : Filler cs) :
      Filler ('/' :: '*' :: (body ++ '*' :: '/' :: cs))

/-- What can stand behind the last word: the end of the text completes a comment, too. -/
inductive LastFiller : List Char → Prop
  | filler {cs : List Char} (filler : Filler cs) : LastFiller cs
  | line {cs body : List Char} (filler : Filler cs) (unbroken : '\n' ∉ body) :
      LastFiller (cs ++ '/' :: '/' :: body)

variable {body cs ds : List Char} {c : Char}

namespace Lexeme

/-! ### Comments -/

theorem decide_newline_mem_cons (c : Char) (body : List Char) :
    decide ('\n' ∈ c :: body) = (decide ('\n' ∈ body) || decide (c = '\n')) := by
  rw [← Bool.decide_or, decide_eq_decide, List.mem_cons, eq_comm (a := c), or_comm]

/-- A comment goes up to the first mark that closes it. -/
theorem commentLength?_append (unclosed : ¬ ['*', '/'] <:+: body) :
    commentLength? (body ++ '*' :: '/' :: cs) = some (body.length + 2, decide ('\n' ∈ body)) := by
  induction body with
  | nil => rfl
  | cons c body ih =>
    have rest : ¬ ['*', '/'] <:+: body := fun h => unclosed (h.trans (List.suffix_cons c body).isInfix)
    rw [List.cons_append, commentLength?, ih rest, decide_newline_mem_cons]
    · rfl
    · rintro more rfl h
      -- The mark would have to close the comment earlier.
      cases body with
      | nil => cases h
      | cons d body =>
        obtain rfl : d = '/' := (List.cons.inj h).1
        exact unclosed ⟨[], body, rfl⟩

theorem commentLength?_eq_some {n : Nat} {broken : Bool} (h : commentLength? cs = some (n, broken)) :
    ∃ body rest, cs = body ++ '*' :: '/' :: rest ∧ n = body.length + 2 ∧
      broken = decide ('\n' ∈ body) ∧ ¬ ['*', '/'] <:+: body := by
  induction cs using commentLength?.induct generalizing n broken with
  | case1 => cases h
  | case2 rest =>
    cases h
    exact ⟨[], rest, rfl, rfl, rfl, by simp⟩
  | case3 c cs unclosed ih =>
    rw [commentLength?] at h
    · obtain ⟨⟨m, inner⟩, found, he⟩ := Option.map_eq_some_iff.1 h
      obtain ⟨body, rest, rfl, rfl, rfl, inside⟩ := ih found
      cases he
      refine ⟨c :: body, rest, rfl, rfl, (decide_newline_mem_cons c body).symm, ?_⟩
      rw [List.infix_cons_iff]
      rintro (⟨more, first⟩ | first)
      · obtain ⟨rfl, rfl⟩ := List.cons.inj first
        exact unclosed _ rfl rfl
      · exact inside first
    · exact unclosed

/-- A comment that is closed is read up to its mark. -/
theorem read_comment (unclosed : ¬ ['*', '/'] <:+: body) :
    read '/' ('*' :: (body ++ '*' :: '/' :: cs)) =
      ⟨if '\n' ∈ body then .newline else .blank, body.length + 3⟩ := by
  have comment : read '/' ('*' :: (body ++ '*' :: '/' :: cs)) =
      readComment (body ++ '*' :: '/' :: cs) := rfl
  rw [comment, readComment, commentLength?_append unclosed]
  dsimp only
  simp only [decide_eq_true_eq]

/-- A comment up to the end of its line is read up to there. -/
theorem read_line (unbroken : '\n' ∉ body) (ends : ∀ c ∈ cs.head?, c = '\n') :
    read '/' ('/' :: (body ++ cs)) = ⟨.blank, body.length + 1⟩ := by
  have line : read '/' ('/' :: (body ++ cs)) =
      ⟨.blank, (('/' :: body ++ cs).takeWhile (· ≠ '\n')).length⟩ := rfl
  rw [line, takeWhile_append_stop]
  · rfl
  · intro c hc
    rw [decide_eq_true_eq]
    rintro rfl
    rcases List.mem_cons.1 hc with h | h
    · cases h
    · exact unbroken h
  · intro c hc
    rw [ends c hc]
    rfl

/-- A character that starts neither a word nor a faulty piece of text. -/
inductive IsIdle : Char → List Char → Prop
  | blank {c : Char} (blank : Text.isBlank c = true) (cs : List Char) : IsIdle c cs
  | line {body cs : List Char} (unbroken : '\n' ∉ body) (ends : ∀ c ∈ cs.head?, c = '\n') :
      IsIdle '/' ('/' :: (body ++ cs))
  | comment {body : List Char} (unclosed : ¬ ['*', '/'] <:+: body) (cs : List Char) :
      IsIdle '/' ('*' :: (body ++ '*' :: '/' :: cs))

theorem isIdle_of_read {n : Nat} (h : read c cs = ⟨.blank, n⟩ ∨ read c cs = ⟨.newline, n⟩) :
    IsIdle c cs := by
  by_cases blank : Text.isBlank c = true
  · exact .blank blank cs
  have blank := Bool.eq_false_iff.2 blank
  by_cases comment : StartsComment c cs
  · obtain ⟨rfl, next | next⟩ := comment
    · obtain ⟨rest, rfl⟩ := List.head?_eq_some_iff.1 next
      rw [← List.takeWhile_append_dropWhile (p := (· ≠ '\n')) (l := rest)]
      refine .line (fun h => ?_) fun c hc => ?_
      · simpa using List.mem_takeWhile_imp h
      · have stop := List.head?_dropWhile_not (· ≠ '\n') rest
        rw [Option.mem_def.1 hc] at stop
        simpa using stop
    · obtain ⟨rest, rfl⟩ := List.head?_eq_some_iff.1 next
      have closed : read '/' ('*' :: rest) = readComment rest := rfl
      rw [closed, readComment] at h
      split at h
      · rename_i found
        obtain ⟨body, rest, rfl, -, -, unclosed⟩ := commentLength?_eq_some found
        exact .comment unclosed rest
      · rcases h with h | h <;> cases congrArg Lexeme.content h
  · have proper := proper_readWord c cs
    rw [← read_eq_readWord blank comment] at proper
    rcases h with h | h <;> rw [h] at proper <;> cases proper

end Lexeme

/-! ### Fillers -/

theorem Filler.newline_head {cs ds : List Char} (h : cs ++ ds = '\n' :: body) (hc : cs ≠ []) :
    ∃ rest, cs = '\n' :: rest := by
  cases cs with
  | nil => exact absurd rfl hc
  | cons c cs => exact ⟨cs, congrArg (· :: cs) (List.cons.inj h).1⟩

theorem LastFiller.blank (blank : Text.isBlank c = true) (h : LastFiller cs) :
    LastFiller (c :: cs) := by
  cases h with
  | filler filler => exact .filler (.blank blank filler)
  | line filler unbroken => exact .line (.blank blank filler) unbroken

theorem LastFiller.comment (unclosed : ¬ ['*', '/'] <:+: body) (h : LastFiller cs) :
    LastFiller ('/' :: '*' :: (body ++ '*' :: '/' :: cs)) := by
  cases h with
  | filler filler => exact .filler (.comment unclosed filler)
  | @line cs body' filler unbroken =>
    have last := LastFiller.line (.comment unclosed filler) unbroken
    simpa using last

theorem LastFiller.lineBreak (unbroken : '\n' ∉ body) (h : LastFiller ('\n' :: cs)) :
    LastFiller ('/' :: '/' :: (body ++ '\n' :: cs)) := by
  generalize hd : '\n' :: cs = ds at h
  cases h with
  | filler filler =>
    subst hd
    exact .filler (.line unbroken filler)
  | @line ds body' filler unbroken' =>
    cases ds with
    | nil => cases hd
    | cons d ds =>
      obtain ⟨rfl, rfl⟩ := List.cons.inj hd
      have last := LastFiller.line (.line unbroken filler) unbroken'
      simpa using last

/-- A text is a filler and, unless it ends there, something that is none. -/
theorem exists_filler (text : List Char) :
    LastFiller text ∨ ∃ gap c cs, text = gap ++ c :: cs ∧ Filler gap ∧ ¬ IsIdle c cs := by
  by_cases idle : ∃ c cs, text = c :: cs ∧ IsIdle c cs
  · obtain ⟨c, cs, rfl, idle⟩ := idle
    cases idle with
    | blank blank =>
      rcases exists_filler cs with last | ⟨gap, d, ds, rfl, filler, other⟩
      · exact .inl (last.blank blank)
      · exact .inr ⟨c :: gap, d, ds, rfl, .blank blank filler, other⟩
    | @line body rest unbroken ends =>
      cases rest with
      | nil =>
        refine .inl ?_
        rw [List.append_nil]
        exact .line .nil unbroken
      | cons d rest =>
        obtain rfl : d = '\n' := ends d rfl
        rcases exists_filler ('\n' :: rest) with last | ⟨gap, d, ds, he, filler, other⟩
        · exact .inl (last.lineBreak unbroken)
        · -- The line break belongs to the filler behind the comment.
          have nonempty : gap ≠ [] := by
            rintro rfl
            obtain ⟨rfl, rfl⟩ := List.cons.inj he
            exact other (.blank isBlank_newline rest)
          obtain ⟨gap, rfl⟩ := Filler.newline_head he.symm nonempty
          obtain ⟨-, rfl⟩ := List.cons.inj he
          exact .inr ⟨_, d, ds, by simp, .line unbroken filler, other⟩
    | @comment body unclosed rest =>
      rcases exists_filler rest with last | ⟨gap, d, ds, rfl, filler, other⟩
      · exact .inl (last.comment unclosed)
      · exact .inr ⟨_, d, ds, by simp, .comment unclosed filler, other⟩
  · cases text with
    | nil => exact .inl (.filler .nil)
    | cons c cs => exact .inr ⟨[], c, cs, rfl, .nil, fun h => idle ⟨c, cs, rfl, h⟩⟩
termination_by text.length
decreasing_by
  all_goals
    subst_vars
    simp only [List.length_cons, List.length_append]
    omega

namespace Stream

/-! ### Passing fillers -/

variable {done : List Token} {place : Position} {span span' : Span}

/-- Several line breaks in a row end a statement once. -/
theorem endStatement_endStatement (done : List Token) (span span' : Span) :
    endStatement (endStatement done span) span' = endStatement done span := by
  cases done with
  | nil => rfl
  | cons last done =>
    by_cases ends : last.kind.endsStatement = true
    · rw [endStatement, if_pos ends]
      rfl
    · rw [endStatement, if_neg ends, endStatement, if_neg ends]

/-- The words before a piece of text that is none, with the semicolon that a line break in it puts
behind them. -/
def pass (piece : List Char) (span : Span) (done : List Token) : List Token :=
  if '\n' ∈ piece then endStatement done span else done

theorem pass_unbroken {piece : List Char} (unbroken : '\n' ∉ piece) : pass piece span done = done :=
  if_neg unbroken

theorem exists_pass_append (piece more : List Char) (span span' : Span) (done : List Token) :
    ∃ span'', pass more span' (pass piece span done) = pass (piece ++ more) span'' done := by
  by_cases first : '\n' ∈ piece
  · refine ⟨span, ?_⟩
    simp only [pass, List.mem_append, first, true_or, if_true]
    split
    · exact endStatement_endStatement _ _ _
    · rfl
  · exact ⟨span', by simp only [pass, List.mem_append, first, false_or, if_false]⟩

section Pieces

variable {body text : List Char}

theorem scan_piece (done : List Token) (place : Position)
    (h : read c (body ++ text) =
      ⟨if '\n' ∈ c :: body then .newline else .blank, body.length⟩) :
    scan done place (c :: (body ++ text)) =
      scan (pass (c :: body) ⟨place, place.after (c :: body)⟩ done) (place.after (c :: body))
        text := by
  rw [scan, h, pass]
  dsimp only
  rw [List.take_left, List.drop_left]
  by_cases broken : '\n' ∈ c :: body
  · simp only [if_pos broken]
  · simp only [if_neg broken]

theorem scan_word {kind : TokenKind} (done : List Token) (place : Position)
    (h : read c (body ++ text) = ⟨.word kind, body.length⟩) :
    scan done place (c :: (body ++ text)) =
      scan (⟨kind, ⟨place, place.after (c :: body)⟩⟩ :: done) (place.after (c :: body)) text := by
  rw [scan, h]
  dsimp only
  rw [List.take_left, List.drop_left]

theorem read_blank (blank : Text.isBlank c = true) (text : List Char) :
    Lexeme.read c ([] ++ text) = ⟨if '\n' ∈ [c] then .newline else .blank, 0⟩ := by
  unfold Lexeme.read
  by_cases newline : c = '\n'
  · subst newline
    rfl
  · rw [if_neg newline, if_pos blank, if_neg]
    rw [List.mem_singleton]
    exact fun h => newline h.symm

theorem scan_filler {gap : List Char} (h : Filler gap) (done : List Token) (place : Position)
    (text : List Char) : ∃ span,
      scan done place (gap ++ text) = scan (pass gap span done) (place.after gap) text := by
  -- Each piece is passed, and then the rest of the filler.
  have join {c : Char} (body rest : List Char) (done : List Token) (place : Position)
      (read : Lexeme.read c (body ++ (rest ++ text)) =
        ⟨if '\n' ∈ c :: body then .newline else .blank, body.length⟩)
      (more : ∀ done place, ∃ span,
        scan done place (rest ++ text) = scan (pass rest span done) (place.after rest) text) :
      ∃ span, scan done place (c :: body ++ rest ++ text) =
        scan (pass (c :: body ++ rest) span done) (place.after (c :: body ++ rest)) text := by
    rw [List.append_assoc, List.cons_append, scan_piece done place read, Position.after_append]
    obtain ⟨span, eq⟩ := more (pass (c :: body) ⟨place, place.after (c :: body)⟩ done)
      (place.after (c :: body))
    rw [eq]
    obtain ⟨span', eq'⟩ :=
      exists_pass_append (c :: body) rest ⟨place, place.after (c :: body)⟩ span done
    exact ⟨span', by rw [eq']⟩
  induction h generalizing done place with
  | nil => exact ⟨.origin, rfl⟩
  | @blank c cs blank _ ih => exact join [] cs done place (read_blank blank _) ih
  | @line body cs unbroken _ ih =>
    have read : Lexeme.read '/' ('/' :: body ++ ('\n' :: cs ++ text)) = ⟨.blank, body.length + 1⟩ :=
      read_line unbroken fun c hc => (Option.some.inj hc).symm
    refine join ('/' :: body) ('\n' :: cs) done place ?_ ih
    rw [read, if_neg (by simpa using unbroken)]
    rfl
  | @comment body cs unclosed _ ih =>
    have read : Lexeme.read '/' ('*' :: (body ++ '*' :: '/' :: (cs ++ text))) = _ :=
      read_comment unclosed
    have eq : '/' :: '*' :: (body ++ '*' :: '/' :: cs) =
        '/' :: ('*' :: (body ++ ['*', '/'])) ++ cs := by simp
    rw [eq]
    refine join _ cs done place ?_ ih
    have eq : '*' :: (body ++ ['*', '/']) ++ (cs ++ text) =
        '*' :: (body ++ '*' :: '/' :: (cs ++ text)) := by simp
    rw [eq, read]
    simp

theorem scan_nil_pass (piece : List Char) (span : Span) (done : List Token) (place : Position) :
    ∃ span' finish, scan (pass piece span done) place [] =
      .ok ⟨(endStatement done span').reverse, finish, 0⟩ := by
  rw [scan, pass]
  split
  · exact ⟨span, ⟨place, place⟩, by rw [endStatement_endStatement]⟩
  · exact ⟨⟨place, place⟩, ⟨place, place⟩, rfl⟩

/-- Behind the last word a semicolon ends its statement, whether the line ends there or the text. -/
theorem scan_last (last : LastFiller text) (done : List Token) (place : Position) :
    ∃ span finish, scan done place text = .ok ⟨(endStatement done span).reverse, finish, 0⟩ := by
  cases last with
  | filler filler =>
    obtain ⟨span, eq⟩ := scan_filler filler done place []
    rw [List.append_nil] at eq
    rw [eq]
    exact scan_nil_pass _ _ _ _
  | @line cs body filler unbroken =>
    obtain ⟨span, eq⟩ := scan_filler filler done place ('/' :: '/' :: body)
    have read : Lexeme.read '/' ('/' :: body ++ []) = ⟨.blank, body.length + 1⟩ :=
      read_line unbroken nofun
    have unbroken : '\n' ∉ '/' :: '/' :: body := by simpa using unbroken
    have line := scan_piece (pass cs span done) (place.after cs)
      (read.trans (by rw [if_neg unbroken]; rfl))
    rw [List.append_nil, pass_unbroken unbroken] at line
    rw [eq, line]
    exact scan_nil_pass _ _ _ _

end Pieces

end Stream

end FrontEnd
