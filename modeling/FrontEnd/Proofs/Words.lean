import FrontEnd.Proofs.TypeExpression.Builds

/-!
The words that a reader passes. Brackets that it opens it closes again, so that some symbols never
stand outside of brackets; and the word `return` begins a statement, so that it stands in no type and
in no expression.
-/

namespace FrontEnd

/-- The bracket that closes another one. -/
def Symbol.closing? : Symbol → Option Symbol
  | openParen => some closeParen
  | openBracket => some closeBracket
  | openCurly => some closeCurly
  | _ => none

namespace Token

/-- A word that is neither a bracket nor one of some symbols. -/
def isPlain (barred : List Symbol) (t : Token) : Bool :=
  t.kind.symbol?.all fun symbol => decide (symbol ∉ barred ++
    [.openParen, .closeParen, .openBracket, .closeBracket, .openCurly, .closeCurly])

/-- The word begins a return statement. -/
def isReturn (t : Token) : Bool :=
  t.kind.symbol? = some .returnWord

/-- All brackets in some words are closed, and the symbols `barred` stand only inside of them. -/
inductive Enclose : List Symbol → List Token → Prop
  | nil {barred : List Symbol} : Enclose barred []
  | word {barred : List Symbol} {token : Token} {words : List Token}
      (plain : token.isPlain barred = true) (rest : Enclose barred words) :
      Enclose barred (token :: words)
  | brackets {barred : List Symbol} {opening closing : Symbol} {inside words : List Token}
      (pair : opening.closing? = some closing) (start stop : Span) (inner : Enclose [] inside)
      (rest : Enclose barred words) :
      Enclose barred (⟨.symbol opening, start⟩ :: (inside ++ ⟨.symbol closing, stop⟩ :: words))

variable {barred fewer : List Symbol} {words more : List Token}

theorem isPlain_mono {t : Token} (h : t.isPlain barred = true) (hs : fewer ⊆ barred) :
    t.isPlain fewer = true := by
  unfold isPlain at h ⊢
  cases hk : t.kind.symbol? with
  | none => rfl
  | some symbol =>
    rw [hk, Option.all_some, decide_eq_true_iff, List.mem_append, not_or] at h
    rw [Option.all_some, decide_eq_true_iff, List.mem_append, not_or]
    exact ⟨fun hm => h.1 (hs hm), h.2⟩

theorem isPlain_of_symbol?_eq_none {t : Token} (h : t.kind.symbol? = none) :
    t.isPlain barred = true := by
  rw [isPlain, h, Option.all_none]

theorem isReturn_of_symbol?_eq_none {t : Token} (h : t.kind.symbol? = none) : t.isReturn = false := by
  rw [isReturn, h]
  rfl

theorem isReturn_of_closing? {opening closing : Symbol} (pair : opening.closing? = some closing)
    (start stop : Span) :
    isReturn ⟨.symbol opening, start⟩ = false ∧ isReturn ⟨.symbol closing, stop⟩ = false := by
  cases opening <;> cases pair <;> exact ⟨rfl, rfl⟩

namespace Enclose

theorem single {token : Token} (plain : token.isPlain barred = true) : Enclose barred [token] :=
  .word plain .nil

theorem append (h : Enclose barred words) (h' : Enclose barred more) :
    Enclose barred (words ++ more) := by
  induction h with
  | nil => exact h'
  | word plain _ ih => exact .word plain (ih h')
  | brackets pair start stop inner _ _ ih =>
    rw [List.cons_append, List.append_assoc, List.cons_append]
    exact .brackets pair start stop inner (ih h')

theorem mono (h : Enclose barred words) (hs : fewer ⊆ barred) : Enclose fewer words := by
  induction h with
  | nil => exact .nil
  | word plain _ ih => exact .word (isPlain_mono plain hs) (ih hs)
  | brackets pair start stop inner _ _ ih => exact .brackets pair start stop inner (ih hs)

end Enclose

end Token

namespace Stream

variable {s t u : Stream} {words more : List Token} {barred fewer : List Symbol}

namespace Shows

theorem refl (s : Stream) : s.Shows [] s := ⟨rfl, rfl⟩

theorem trans (h : s.Shows words t) (h' : t.Shows more u) : s.Shows (words ++ more) u where
  ahead := by rw [h.ahead, h'.ahead, List.append_assoc]
  rest := by rw [iterate_advance_append, ← h.rest, ← h'.rest]

/-- The words between two places of a stream are known. -/
theorem unique (h : s.Shows words t) (h' : s.Shows more t) : words = more :=
  List.append_cancel_right (h.ahead.symm.trans h'.ahead)

end Shows

theorem shows_advance {token : Token} {behind : List Token} (h : s.ahead = token :: behind) :
    s.Shows [token] s.advance :=
  ⟨by rw [ahead_advance h, h]; rfl, rfl⟩

theorem shows_of_skip? {wanted : Symbol} {rest : Shorter s} (h : s.skip? wanted = some rest) :
    ∃ span, s.Shows [⟨.symbol wanted, span⟩] rest.stream := by
  obtain ⟨⟨kind, span⟩, ahead, symbol⟩ := ahead_of_skip? h
  obtain rfl : kind = .symbol wanted := by
    cases kind <;> cases symbol
    rfl
  rw [(isAt_of_skip? h).2]
  exact ⟨span, shows_advance ahead⟩

theorem stream_of_name? {past : Past s String} (h : s.name? = some past) :
    past.stream = s.advance := by
  unfold name? at h
  split at h
  · cases h
    rfl
  · cases h

theorem shows_of_kind {kind : TokenKind} (h : s.kind = kind) (he : kind ≠ .symbol .endOfFile) :
    s.Shows [⟨kind, s.span⟩] s.advance := by
  unfold Stream.kind at h
  split at h
  · rename_i token behind ahead
    subst h
    have shown := shows_advance ahead
    rwa [show token = ⟨token.kind, s.span⟩ by rw [span, ahead]] at shown
  · exact absurd h.symm he

theorem shows_of_name? {past : Past s String} (h : s.name? = some past) :
    s.Shows [⟨.ident past.value, s.span⟩] past.stream := by
  rw [stream_of_name? h]
  exact shows_of_kind (kind_of_name? h) nofun

/-- From `s` to `t` some words have been passed. Their brackets are closed, and the symbols `barred`
stand only inside of brackets. -/
def Passes (barred : List Symbol) (s t : Stream) : Prop :=
  ∃ words, s.Shows words t ∧ Token.Enclose barred words

namespace Passes

theorem refl (barred : List Symbol) (s : Stream) : Passes barred s s :=
  ⟨[], .refl s, .nil⟩

theorem trans (h : Passes barred s t) (h' : Passes barred t u) : Passes barred s u := by
  obtain ⟨words, shown, closed⟩ := h
  obtain ⟨more, shown', closed'⟩ := h'
  exact ⟨words ++ more, shown.trans shown', closed.append closed'⟩

theorem mono (h : Passes barred s t) (hs : fewer ⊆ barred) : Passes fewer s t := by
  obtain ⟨words, shown, closed⟩ := h
  exact ⟨words, shown, closed.mono hs⟩

/-- Inside of brackets every symbol may stand. -/
theorem inside (h : Passes barred s t) : Passes [] s t := h.mono (List.nil_subset barred)

end Passes

theorem passes_of_skip? {wanted : Symbol} {rest : Shorter s} (h : s.skip? wanted = some rest)
    (plain : Token.isPlain barred ⟨.symbol wanted, .origin⟩ = true) :
    Passes barred s rest.stream := by
  obtain ⟨span, shown⟩ := shows_of_skip? h
  exact ⟨_, shown, .single plain⟩

/-- Brackets and what stands between them. -/
theorem passes_brackets (barred : List Symbol) {opening closing : Symbol}
    (pair : opening.closing? = some closing) {first : Shorter s} {last : Shorter t}
    (opened : s.skip? opening = some first) (between : Passes [] first.stream t)
    (closed : t.skip? closing = some last) : Passes barred s last.stream := by
  obtain ⟨start, shown⟩ := shows_of_skip? opened
  obtain ⟨inside, shown', inner⟩ := between
  obtain ⟨stop, shown''⟩ := shows_of_skip? closed
  exact ⟨_, (shown.trans shown').trans shown'', .brackets pair start stop inner .nil⟩

/-- Words of types and expressions have been passed: besides, there is no `return` among them. -/
def PassesTerm (barred : List Symbol) (s t : Stream) : Prop :=
  ∃ words, s.Shows words t ∧ Token.Enclose barred words ∧ ∀ word ∈ words, word.isReturn = false

namespace PassesTerm

theorem passes (h : PassesTerm barred s t) : Passes barred s t := by
  obtain ⟨words, shown, closed, _⟩ := h
  exact ⟨words, shown, closed⟩

theorem refl (barred : List Symbol) (s : Stream) : PassesTerm barred s s :=
  ⟨[], .refl s, .nil, nofun⟩

theorem trans (h : PassesTerm barred s t) (h' : PassesTerm barred t u) : PassesTerm barred s u := by
  obtain ⟨words, shown, closed, other⟩ := h
  obtain ⟨more, shown', closed', other'⟩ := h'
  exact ⟨words ++ more, shown.trans shown', closed.append closed',
    List.forall_mem_append.2 ⟨other, other'⟩⟩

theorem inside (h : PassesTerm barred s t) : PassesTerm [] s t := by
  obtain ⟨words, shown, closed, other⟩ := h
  exact ⟨words, shown, closed.mono (List.nil_subset barred), other⟩

end PassesTerm

theorem passesTerm_of_skip? {wanted : Symbol} {rest : Shorter s} (h : s.skip? wanted = some rest)
    (plain : Token.isPlain barred ⟨.symbol wanted, .origin⟩ = true)
    (other : Token.isReturn ⟨.symbol wanted, .origin⟩ = false) :
    PassesTerm barred s rest.stream := by
  obtain ⟨span, shown⟩ := shows_of_skip? h
  exact ⟨_, shown, .single plain, List.forall_mem_singleton.2 other⟩

theorem passesTerm_of_name? (barred : List Symbol) {past : Past s String}
    (h : s.name? = some past) : PassesTerm barred s past.stream :=
  ⟨_, shows_of_name? h, .single rfl, List.forall_mem_singleton.2 rfl⟩

theorem passes_of_name? (barred : List Symbol) {past : Past s String} (h : s.name? = some past) :
    Passes barred s past.stream :=
  (passesTerm_of_name? barred h).passes

theorem passesTerm_brackets (barred : List Symbol) {opening closing : Symbol}
    (pair : opening.closing? = some closing) {first : Shorter s} {last : Shorter t}
    (opened : s.skip? opening = some first) (between : PassesTerm [] first.stream t)
    (closed : t.skip? closing = some last) : PassesTerm barred s last.stream := by
  obtain ⟨start, shown⟩ := shows_of_skip? opened
  obtain ⟨inside, shown', inner, other⟩ := between
  obtain ⟨stop, shown''⟩ := shows_of_skip? closed
  obtain ⟨begins, ends⟩ := Token.isReturn_of_closing? pair start stop
  refine ⟨_, (shown.trans shown').trans shown'', .brackets pair start stop inner .nil, ?_⟩
  simp only [List.mem_append, List.mem_singleton]
  rintro word ((rfl | hw) | rfl)
  exacts [begins, other word hw, ends]

theorem passesTerm_exportMark (s : Stream)
    (plain : Token.isPlain barred ⟨.symbol (.operator .multiply), .origin⟩ = true) :
    PassesTerm barred s s.exportMark.stream := by
  unfold exportMark
  split
  · rename_i found
    exact passesTerm_of_skip? found plain rfl
  · exact .refl barred s

theorem passes_exportMark (s : Stream)
    (plain : Token.isPlain barred ⟨.symbol (.operator .multiply), .origin⟩ = true) :
    Passes barred s s.exportMark.stream :=
  (passesTerm_exportMark s plain).passes

end Stream

namespace DeclaredName

variable {s : Stream}

theorem passesTerm_read {past : Past s DeclaredName} (h : read s = .ok past) :
    Stream.PassesTerm [] s past.stream := by
  unfold read at h
  split at h
  · rename_i named
    cases h
    exact (Stream.passesTerm_of_name? [] named).trans (Stream.passesTerm_exportMark _ rfl)
  · cases h

/-- A list of names is a name alone, or a name, a comma and a list. -/
theorem readList_cases {capacity : Nat} {past : Past s (List DeclaredName)}
    (h : readList capacity s = .ok past) : ∃ first, read s = .ok first ∧
      (past.value = [first.value] ∧ past.stream = first.stream ∨
        ∃ room comma more, first.stream.skip? .comma = some comma ∧ capacity = room + 1 ∧
          readList room comma.stream = .ok more ∧ past.value = first.value :: more.value ∧
          past.stream = more.stream) := by
  unfold readList at h
  split at h
  · cases h
  cases capacity with
  | zero => cases h
  | succ room =>
    cases first : read s with
    | error fault =>
      rw [first] at h
      cases h
    | ok declared =>
      rw [first] at h
      dsimp only [bind, Except.bind] at h
      refine ⟨declared, rfl, ?_⟩
      split at h
      · cases h
        exact .inl ⟨rfl, rfl⟩
      · rename_i comma found
        dsimp only [Past.after] at h
        cases others : readList room comma.stream with
        | error fault =>
          rw [others] at h
          cases h
        | ok more =>
          rw [others] at h
          cases h
          exact .inr ⟨room, comma, more, found, rfl, others, rfl, rfl⟩

theorem passesTerm_readList {capacity : Nat} {past : Past s (List DeclaredName)}
    (h : readList capacity s = .ok past) : Stream.PassesTerm [] s past.stream := by
  induction capacity generalizing s with
  | zero =>
    obtain ⟨first, here, ⟨_, stops⟩ | ⟨_, _, _, _, ⟨⟩, _⟩⟩ := readList_cases h
    rw [stops]
    exact passesTerm_read here
  | succ capacity ih =>
    obtain ⟨first, here, ⟨_, stops⟩ | ⟨room, comma, more, found, ⟨⟩, others, _, stops⟩⟩ :=
      readList_cases h
    · rw [stops]
      exact passesTerm_read here
    · rw [stops]
      exact ((passesTerm_read here).trans (Stream.passesTerm_of_skip? found rfl rfl)).trans
        (ih others)

/-- A name without an export mark is a single word. -/
theorem shows_read {past : Past s DeclaredName} (h : read s = .ok past)
    (plain : past.value.exported = false) :
    s.Shows [⟨.ident past.value.name, s.span⟩] past.stream := by
  unfold read at h
  split at h
  · rename_i name s₁ h₁ named
    cases h
    have shown := Stream.shows_of_name? named
    dsimp only at plain shown ⊢
    generalize hm : s₁.exportMark = mark at plain ⊢
    unfold Stream.exportMark at hm
    split at hm
    · subst hm
      cases plain
    · subst hm
      exact shown
  · cases h

end DeclaredName

end FrontEnd
