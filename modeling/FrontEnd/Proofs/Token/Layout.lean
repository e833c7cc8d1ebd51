import FrontEnd.Proofs.Token.Filler

/-!
Where the words of a text stand. The words that are read, apart from the semicolons that line breaks
put between them, stand in the text in this order, with nothing but fillers between them; and what
stands in the span of a word is read as that word by itself.
-/

namespace FrontEnd

open Lexeme

/-- A text that holds nothing but `word` starts with a word of this kind, which takes all of it. -/
def TokenKind.Fills (kind : TokenKind) (word : List Char) : Prop :=
  ∃ s, Stream.ofText (String.ofList word) = .ok s ∧
    s.ahead.head? = some ⟨kind, ⟨.origin, .after .origin word⟩⟩

/-- The words of a text that starts at `place`, each with its span. Outside of the spans there are
fillers only. -/
inductive Layout : Position → List Char → List Token → Prop
  | filler {place : Position} {text : List Char} (last : LastFiller text) : Layout place text []
  | word {place : Position} {gap word text : List Char} {kind : TokenKind} {words : List Token}
      (filler : Filler gap) (fills : kind.Fills word)
      (next : Layout (place.after (gap ++ word)) text words) :
      Layout place (gap ++ word ++ text)
        (⟨kind, ⟨place.after gap, place.after (gap ++ word)⟩⟩ :: words)

/-- The same words with a semicolon behind some of those that can end a statement. -/
inductive Punctuated : List Token → List Token → Prop
  | nil : Punctuated [] []
  | word {words tokens : List Token} (w : Token) (rest : Punctuated words tokens) :
      Punctuated (w :: words) (w :: tokens)
  | ended {words tokens : List Token} {w : Token} (ends : w.kind.endsStatement = true) (span : Span)
      (rest : Punctuated words tokens) :
      Punctuated (w :: words) (w :: ⟨.symbol .semicolon, span⟩ :: tokens)

namespace Stream

/-- The words ahead and the end of the file. -/
def tokens (s : Stream) : List Token :=
  s.ahead ++ [⟨.symbol .endOfFile, s.finish⟩]

/-- The words follow each other in the text. -/
structure InOrder (tokens : List Token) : Prop where
  forward : ∀ t ∈ tokens, t.span.first ≤ t.span.last
  apart : tokens.Pairwise fun a b => a.span.last ≤ b.span.first

/-- How the words of a stream stand in its text. -/
structure Renders (s : Stream) (text : List Char) : Prop where
  inner : ∀ t ∈ s.ahead, t.kind ≠ .symbol .endOfFile ∧ t.kind ≠ .symbol .newline
  inOrder : InOrder s.tokens
  words : ∃ words, Punctuated words s.ahead ∧ Layout .origin text words ∧
    ∀ w ∈ words, w.kind.Fills (w.span.cut text)

variable {done : List Token} {place next : Position} {text : List Char} {s : Stream}

/-! ### The order of the words -/

/-- The words read so far, the last one first, stand in order in front of `place`. -/
structure UpTo (place : Position) (done : List Token) : Prop where
  forward : ∀ t ∈ done, t.span.first ≤ t.span.last
  before : ∀ t ∈ done, t.span.last ≤ place
  apart : done.Pairwise fun b a => a.span.last ≤ b.span.first

theorem UpTo.mono (h : UpTo place done) (le : place ≤ next) : UpTo next done :=
  ⟨h.forward, fun t ht => (h.before t ht).trans le, h.apart⟩

theorem UpTo.cons (h : UpTo place done) (kind : TokenKind) (le : place ≤ next) :
    UpTo next (⟨kind, ⟨place, next⟩⟩ :: done) where
  forward := List.forall_mem_cons.2 ⟨le, h.forward⟩
  before := List.forall_mem_cons.2 ⟨le_refl _, (h.mono le).before⟩
  apart := List.pairwise_cons.2 ⟨h.before, h.apart⟩

theorem UpTo.endStatement (h : UpTo place done) (le : place ≤ next) :
    UpTo next (endStatement done ⟨place, next⟩) := by
  unfold Stream.endStatement
  split
  · split
    · exact h.cons _ le
    · exact h.mono le
  · exact h.mono le

theorem UpTo.inOrder (h : UpTo place done) : InOrder done.reverse :=
  ⟨fun t ht => h.forward t (List.mem_reverse.1 ht), List.pairwise_reverse.2 h.apart⟩

theorem inOrder_of_scan (h : scan done place text = .ok s) (before : UpTo place done) :
    InOrder s.tokens := by
  induction done, place, text using scan.induct with
  | case1 done place =>
    rw [scan] at h
    cases h
    have all := ((before.endStatement (le_refl place)).cons (.symbol .endOfFile)
      (le_refl place)).inOrder
    rwa [List.reverse_cons] at all
  | case2 done place c cs lexeme next rest hc ih =>
    rw [scan] at h
    simp only [lexeme] at hc
    simp only [hc] at h
    exact ih h (before.mono (Position.le_after place _))
  | case3 done place c cs lexeme next rest hc ih =>
    rw [scan] at h
    simp only [lexeme] at hc
    simp only [hc] at h
    exact ih h (before.endStatement (Position.le_after place _))
  | case4 done place c cs lexeme next rest kind hc ih =>
    rw [scan] at h
    simp only [lexeme] at hc
    simp only [hc] at h
    exact ih h (before.cons kind (Position.le_after place _))
  | case5 done place c cs lexeme cause hc =>
    rw [scan] at h
    simp only [lexeme] at hc
    simp only [hc] at h
    cases h

/-! ### The words in their text -/

theorem fills_of_read {c : Char} {body : List Char} {kind : TokenKind}
    (h : read c (body ++ text) = ⟨.word kind, body.length⟩) : kind.Fills (c :: body) := by
  have found := ofText_word h
  rwa [List.take_left] at found

/-- What does not start a filler is a word or a fault. -/
theorem exists_word {c : Char} {cs : List Char} (other : ¬ IsIdle c cs) :
    (∃ kind body text, cs = body ++ text ∧ read c cs = ⟨.word kind, body.length⟩ ∧
      kind ≠ .symbol .endOfFile ∧ kind ≠ .symbol .newline) ∨
    ∃ cause n, read c cs = ⟨.faulty cause, n⟩ := by
  have blank : Text.isBlank c = false := Bool.eq_false_iff.2 fun h => other (.blank h cs)
  generalize found : read c cs = l
  obtain ⟨content, n⟩ := l
  cases content with
  | blank => exact (other (isIdle_of_read (.inl found))).elim
  | newline => exact (other (isIdle_of_read (.inr found))).elim
  | word kind =>
    obtain ⟨_, comment⟩ := of_read_eq_word found
    have proper := proper_readWord c cs
    rw [← read_eq_readWord blank comment, found] at proper
    obtain ⟨_, _, bound⟩ := isLocal_read c cs kind n found
    obtain ⟨notEnd, notLine⟩ : kind ≠ .symbol .endOfFile ∧ kind ≠ .symbol .newline := by
      cases proper with
      | word notEnd notLine => exact ⟨notEnd, notLine⟩
    refine .inl ⟨kind, cs.take n, cs.drop n, (List.take_append_drop n cs).symm, ?_, notEnd, notLine⟩
    rw [List.length_take_of_le bound]
  | faulty cause => exact .inr ⟨cause, n, rfl⟩

/-- A semicolon, if the last word can end a statement. -/
inductive Implied (done : List Token) : List Token → Prop
  | none : Implied done []
  | semicolon {last : Token} {more : List Token} (eq : done = last :: more)
      (ends : last.kind.endsStatement = true) (span : Span) :
      Implied done [⟨.symbol .semicolon, span⟩]

theorem exists_implied_endStatement (done : List Token) (span : Span) :
    ∃ implied, Implied done implied ∧ (endStatement done span).reverse = done.reverse ++ implied := by
  unfold endStatement
  split
  · rename_i last more
    split
    · rename_i ends
      exact ⟨_, .semicolon rfl ends span, List.reverse_cons⟩
    · exact ⟨[], .none, (List.append_nil _).symm⟩
  · exact ⟨[], .none, rfl⟩

theorem exists_implied_pass (gap : List Char) (done : List Token) (span : Span) :
    ∃ implied, Implied done implied ∧ (pass gap span done).reverse = done.reverse ++ implied := by
  unfold pass
  split
  · exact exists_implied_endStatement done span
  · exact ⟨[], .none, (List.append_nil _).symm⟩

theorem Implied.punctuated {w : Token} {done implied words tokens : List Token}
    (h : Implied (w :: done) implied) (rest : Punctuated words tokens) :
    Punctuated (w :: words) (w :: (implied ++ tokens)) := by
  cases h with
  | none => exact .word w rest
  | semicolon eq ends span =>
    obtain ⟨rfl, rfl⟩ := List.cons.inj eq
    exact .ended ends span rest

/-- The words of a scan are those of its text, behind those that were read before. -/
theorem layout_of_scan (text : List Char) (done : List Token) (place : Position)
    (h : scan done place text = .ok s) : ∃ implied words tokens,
      Implied done implied ∧ Punctuated words tokens ∧ Layout place text words ∧
        s.ahead = done.reverse ++ (implied ++ tokens) := by
  rcases exists_filler text with last | ⟨gap, c, cs, start, filler, other⟩
  · obtain ⟨span, finish, eq⟩ := scan_last last done place
    cases eq.symm.trans h
    obtain ⟨implied, allowed, eq⟩ := exists_implied_endStatement done span
    exact ⟨implied, [], [], allowed, .nil, .filler last, eq.trans (by rw [List.append_nil])⟩
  · obtain ⟨span, eq⟩ := scan_filler filler done place (c :: cs)
    rw [start, eq] at h
    rcases exists_word other with ⟨kind, body, rest, behind, read, -, -⟩ | ⟨cause, n, read⟩
    · have whole : text = gap ++ c :: body ++ rest := by simp [start, behind]
      have shorter : rest.length < text.length := by
        rw [whole, List.length_append, List.length_append, List.length_cons]
        omega
      rw [behind] at read h
      rw [scan_word _ _ read, ← Position.after_append] at h
      obtain ⟨implied, words, tokens, allowed, punctuated, layout, ahead⟩ :=
        layout_of_scan rest _ _ h
      obtain ⟨between, between_allowed, before⟩ := exists_implied_pass gap done span
      refine ⟨between, _, _, between_allowed, allowed.punctuated punctuated, ?_, ?_⟩
      · rw [whole]
        exact .word filler (fills_of_read read) layout
      · rw [ahead, List.reverse_cons, before]
        simp
    · rw [scan, read] at h
      cases h
termination_by text.length

theorem inner_of_scan (h : scan done place text = .ok s)
    (before : ∀ t ∈ done, t.kind ≠ .symbol .endOfFile ∧ t.kind ≠ .symbol .newline) :
    ∀ t ∈ s.ahead, t.kind ≠ .symbol .endOfFile ∧ t.kind ≠ .symbol .newline := by
  have ended {done : List Token} (span : Span)
      (before : ∀ t ∈ done, t.kind ≠ .symbol .endOfFile ∧ t.kind ≠ .symbol .newline) :
      ∀ t ∈ endStatement done span, t.kind ≠ .symbol .endOfFile ∧ t.kind ≠ .symbol .newline := by
    unfold endStatement
    split
    · split
      · exact List.forall_mem_cons.2 ⟨⟨by simp, by simp⟩, before⟩
      · exact before
    · exact before
  induction done, place, text using scan.induct with
  | case1 done place =>
    rw [scan] at h
    cases h
    exact fun t ht => ended _ before t (List.mem_reverse.1 ht)
  | case2 done place c cs lexeme next rest hc ih =>
    rw [scan] at h
    simp only [lexeme] at hc
    simp only [hc] at h
    exact ih h before
  | case3 done place c cs lexeme next rest hc ih =>
    rw [scan] at h
    simp only [lexeme] at hc
    simp only [hc] at h
    exact ih h (ended _ before)
  | case4 done place c cs lexeme next rest kind hc ih =>
    rw [scan] at h
    have found : read c cs = ⟨.word kind, lexeme.length⟩ := congrArg (Lexeme.mk · _) hc
    simp only [lexeme] at hc
    simp only [hc] at h
    refine ih h (List.forall_mem_cons.2 ⟨?_, before⟩)
    obtain ⟨blank, comment⟩ := of_read_eq_word found
    have proper := proper_readWord c cs
    rw [← read_eq_readWord blank comment, found] at proper
    cases proper with
    | word notEnd notLine => exact ⟨notEnd, notLine⟩
  | case5 done place c cs lexeme cause hc =>
    rw [scan] at h
    simp only [lexeme] at hc
    simp only [hc] at h
    cases h

end Stream

/-- What stands in the span of a word is the word. -/
theorem Layout.fills_cut {place : Position} {text before : List Char} {words : List Token}
    (h : Layout place text words) (start : place = .after .origin before) :
    ∀ w ∈ words, w.kind.Fills (w.span.cut (before ++ text)) := by
  induction h generalizing before with
  | filler => nofun
  | @word place gap word text kind words filler fills next ih =>
    subst start
    refine List.forall_mem_cons.2 ⟨?_, ?_⟩
    · dsimp only
      rw [← Position.after_append, ← Position.after_append, ← List.append_assoc,
        ← List.append_assoc, ← List.append_assoc, Span.cut_piece]
      exact fills
    · have rest := ih (Position.after_append .origin before (gap ++ word)).symm
      rwa [List.append_assoc] at rest

namespace Stream

/-- The words of a text stand in it in order, with fillers between them only. -/
theorem ofText_renders {text : String} {s : Stream} (h : ofText text = .ok s) :
    s.Renders text.toList := by
  have nothing : UpTo .origin [] := ⟨nofun, nofun, .nil⟩
  obtain ⟨implied, words, tokens, allowed, punctuated, layout, ahead⟩ :=
    layout_of_scan text.toList [] .origin h
  obtain rfl : implied = [] := by
    cases allowed with
    | none => rfl
    | semicolon eq => cases eq
  have start : Position.origin = .after .origin [] := rfl
  have cut := layout.fills_cut start
  exact ⟨inner_of_scan h nofun, inOrder_of_scan h nothing, words, ahead ▸ punctuated, layout, cut⟩

/-- A comment over two lines ends the statement before it; `1e2` is one word. -/
theorem sumText_renders : ∃ s, ofText "a := 1e2 /* the\nsum */ b // of two" = .ok s ∧
    s.Renders "a := 1e2 /* the\nsum */ b // of two".toList := by
  have reads : (ofText "a := 1e2 /* the\nsum */ b // of two").isOk = true := by decide +kernel
  cases h : ofText "a := 1e2 /* the\nsum */ b // of two" with
  | ok s => exact ⟨s, rfl, ofText_renders h⟩
  | error fault =>
    rw [h] at reads
    cases reads

end Stream

end FrontEnd
