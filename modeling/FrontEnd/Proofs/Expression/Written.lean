import FrontEnd.Proofs.Words

/-!
The words of an expression that was read. Unless something is missing in its tree, they are those of
the tree.
-/

namespace FrontEnd

/-- The symbols that separate types and expressions from what follows. -/
def Symbol.separators : List Symbol := [comma, assign, semicolon]

/-- No word of the reference is missing. -/
def Reference.IsWhole : Reference → Prop
  | plain .. => True
  | member _ _ name => ∃ found, name = .ok found

/-- No word of the tree is missing. -/
def Expression.IsWhole : Expression → Prop
  | literal _ => True
  | name reference => reference.IsWhole
  | group inner unclosed? => inner.IsWhole ∧ unclosed? = none
  | unary _ _ operand => operand.IsWhole
  | binary _ _ left right => left.IsWhole ∧ right.IsWhole
  | missing _ => False

variable {isModule : String → Bool} {s : Stream} {words : List Token}

namespace Reference

theorem writtenAs_of_read? {past : Past s Reference} (h : read? isModule s = some past)
    (whole : past.value.IsWhole) :
    ∃ words, past.value.WrittenAs isModule words ∧ s.Shows words past.stream := by
  obtain ⟨⟨first, s₁, h₁⟩, named, rfl⟩ := Option.map_eq_some_iff.1 h
  have shown := Stream.shows_of_name? named
  revert whole
  unfold readFrom
  dsimp only at shown ⊢
  split
  · rename_i dot found
    obtain ⟨span, dotted⟩ := Stream.shows_of_skip? found
    split
    · rename_i isFile
      split
      · rename_i second member
        exact fun _ => ⟨_, .member isFile _ _ span _,
          (shown.trans dotted).trans (Stream.shows_of_name? member)⟩
      · rintro ⟨_, ⟨⟩⟩
    · exact fun _ => ⟨_, .plain first s.span, shown⟩
  · exact fun _ => ⟨_, .plain first s.span, shown⟩

theorem WrittenAs.enclose {r : Reference} (h : r.WrittenAs isModule words) :
    Token.Enclose Symbol.separators words := by
  cases h with
  | plain name span => exact .single rfl
  | member isFile name start dot span => exact .word rfl (.word rfl (.single rfl))

theorem WrittenAs.isReturn_eq_false {r : Reference} (h : r.WrittenAs isModule words) :
    ∀ word ∈ words, word.isReturn = false := by
  cases h with
  | plain name span => exact List.forall_mem_singleton.2 rfl
  | member isFile name start dot span =>
    exact List.forall_mem_cons.2 ⟨rfl, List.forall_mem_cons.2 ⟨rfl, List.forall_mem_singleton.2 rfl⟩⟩

end Reference

namespace Expression

theorem symbol?_of_literal? {kind : TokenKind} {value : Constant}
    (h : literal? kind = some value) : kind.symbol? = none := by
  cases kind <;> first | rfl | cases h

theorem symbol_of_unaryOperator? {kind : TokenKind} {op : UnaryOperator}
    (h : unaryOperator? kind = some op) :
    kind = .symbol (.operator .subtract) ∨ kind = .symbol .not := by
  unfold unaryOperator? at h
  split at h
  · exact .inl rfl
  · exact .inr rfl
  · cases h

theorem symbol_of_operator? {kind : TokenKind} {op : Operator} (h : operator? kind = some op) :
    kind = .symbol (.operator op) := by
  unfold operator? at h
  split at h
  · cases h
    rfl
  · cases h

/-- Outside of parentheses stands no separator. -/
theorem WrittenAs.enclose {tree : Expression} (h : tree.WrittenAs isModule words) :
    Token.Enclose Symbol.separators words := by
  induction h with
  | literal h span => exact .single (Token.isPlain_of_symbol?_eq_none (symbol?_of_literal? h))
  | name written => exact written.enclose
  | group opening _ closing ih =>
    exact .brackets rfl opening closing (ih.mono (List.nil_subset _)) .nil
  | unary h span _ ih =>
    rcases symbol_of_unaryOperator? h with rfl | rfl
    · exact .word rfl ih
    · exact .word rfl ih
  | binary op span _ _ first second => exact first.append (.word rfl second)

theorem WrittenAs.isReturn_eq_false {tree : Expression} (h : tree.WrittenAs isModule words) :
    ∀ word ∈ words, word.isReturn = false := by
  induction h with
  | literal h span =>
    exact List.forall_mem_singleton.2
      (Token.isReturn_of_symbol?_eq_none (symbol?_of_literal? h))
  | name written => exact written.isReturn_eq_false
  | group opening _ closing ih =>
    exact List.forall_mem_cons.2 ⟨rfl,
      List.forall_mem_append.2 ⟨ih, List.forall_mem_singleton.2 rfl⟩⟩
  | unary h span _ ih =>
    rcases symbol_of_unaryOperator? h with rfl | rfl
    · exact List.forall_mem_cons.2 ⟨rfl, ih⟩
    · exact List.forall_mem_cons.2 ⟨rfl, ih⟩
  | binary op span _ _ first second =>
    exact List.forall_mem_append.2 ⟨first, List.forall_mem_cons.2 ⟨rfl, second⟩⟩

theorem shows_closeGroup (h : (closeGroup s).value = none) :
    ∃ span, s.Shows [⟨.symbol .closeParen, span⟩] (closeGroup s).stream := by
  unfold closeGroup at h ⊢
  split at h
  · rename_i found
    exact Stream.shows_of_skip? found
  · cases h

/-- In front of `t` stand the words of the tree. -/
def Stands (isModule : String → Bool) (tree : Expression) (s t : Stream) : Prop :=
  ∃ words, tree.WrittenAs isModule words ∧ s.Shows words t

variable {t u : Stream} {tree left : Expression}

theorem stands_literal {value : Constant} (h : literal? s.kind = some value) :
    Stands isModule (.literal value) s s.advance := by
  refine ⟨_, .literal h s.span, Stream.shows_of_kind rfl ?_⟩
  intro he
  rw [he] at h
  cases h

theorem Stands.unary {op : UnaryOperator} (h : unaryOperator? s.kind = some op)
    (operand : Stands isModule tree s.advance t) : Stands isModule (.unary op s.span tree) s t := by
  obtain ⟨words, written, shown⟩ := operand
  refine ⟨_, .unary h s.span written, (Stream.shows_of_kind rfl ?_).trans shown⟩
  intro he
  rw [he] at h
  cases h

theorem Stands.group {first : Shorter s} (opened : s.skip? .openParen = some first)
    (inner : Stands isModule tree first.stream t) (closed : (closeGroup t).value = none) :
    Stands isModule (.group tree none) s (closeGroup t).stream := by
  obtain ⟨opening, shown⟩ := Stream.shows_of_skip? opened
  obtain ⟨words, written, shown'⟩ := inner
  obtain ⟨closing, shown''⟩ := shows_closeGroup closed
  exact ⟨_, .group opening written closing, (shown.trans shown').trans shown''⟩

theorem Stands.binary {op : Operator} {right : Expression} (first : Stands isModule left s t)
    (h : operator? t.kind = some op) (second : Stands isModule right t.advance u) :
    Stands isModule (.binary op t.span left right) s u := by
  obtain ⟨before, written, shown⟩ := first
  obtain ⟨behind, written', shown'⟩ := second
  have kind := symbol_of_operator? h
  have sign := Stream.shows_of_kind kind nofun
  have shown := shown.trans (sign.trans shown')
  exact ⟨_, .binary op t.span written written', shown⟩

mutual

theorem stands_readOperand (isModule : String → Bool) (s : Stream) {tree : Expression} {t : Stream}
    (h : (readOperand isModule s).got = (tree, t)) (whole : tree.IsWhole) :
    Stands isModule tree s t := by
  cases prefixed : unaryOperator? s.kind with
  | some op =>
    have shorter := (advance_behind_of_unaryOperator? prefixed).2
    rw [got_readOperand_unary prefixed] at h
    cases h
    exact .unary prefixed (stands_readOperand isModule s.advance rfl whole)
  | none =>
    cases valued : literal? s.kind with
    | some value =>
      rw [got_readOperand_literal valued] at h
      cases h
      exact stands_literal valued
    | none =>
      cases opened : s.skip? .openParen with
      | some first =>
        have shorter := first.lt.2
        obtain ⟨here, next⟩ := Stream.isAt_of_skip? opened
        rw [got_readOperand_group here, ← next] at h
        cases h
        obtain ⟨whole, closed⟩ := whole
        rw [closed]
        exact .group opened (stands_readAbove isModule 1 first.stream rfl whole) closed
      | none =>
        cases named : Reference.read? isModule s with
        | some past =>
          rw [got_readOperand_name named] at h
          cases h
          obtain ⟨words, written, shown⟩ := Reference.writtenAs_of_read? named whole
          exact ⟨words, .name written, shown⟩
        | none =>
          rw [got_readOperand_missing prefixed valued opened named] at h
          cases h
          exact whole.elim
termination_by 3 * s.size

theorem stands_readAbove (isModule : String → Bool) (lowest : Nat) (s : Stream)
    {tree : Expression} {t : Stream} (h : (readAbove isModule lowest s).got = (tree, t))
    (whole : tree.IsWhole) : Stands isModule tree s t := by
  have within := (readOperand isModule s).le.2
  rw [got_readAbove rfl] at h
  exact stands_readOperators isModule lowest _ s _
    (fun left => stands_readOperand isModule s rfl left) h whole
termination_by 3 * s.size + 2
decreasing_by all_goals omega

/-- The operand `left` begins at `first` and ends at `s`. -/
theorem stands_readOperators (isModule : String → Bool) (lowest : Nat) (left : Expression)
    (first s : Stream) (operand : left.IsWhole → Stands isModule left first s) {tree : Expression}
    {t : Stream} (h : (readOperators isModule lowest left s).got = (tree, t))
    (whole : tree.IsWhole) : Stands isModule tree first t := by
  by_cases next : ∃ op, operator? s.kind = some op ∧ lowest ≤ op.precedence
  · obtain ⟨op, here, tight⟩ := next
    have shorter := (advance_behind_of_operator? here).2
    have within := (readAbove isModule (op.precedence + 1) s.advance).le.2
    rw [got_readOperators_next here tight rfl] at h
    refine stands_readOperators isModule lowest _ first _ (fun both => ?_) h whole
    exact (operand both.1).binary here
      (stands_readAbove isModule (op.precedence + 1) s.advance rfl both.2)
  · rw [got_readOperators_stop fun op here => Nat.lt_of_not_ge fun tight => next ⟨op, here, tight⟩]
      at h
    cases h
    exact operand whole
termination_by 3 * s.size + 1

end

/-- The words that an expression was read from are those of its tree. -/
theorem stands_read (isModule : String → Bool) (s : Stream)
    (whole : (read isModule s).value.IsWhole) :
    Stands isModule (read isModule s).value s (read isModule s).stream :=
  stands_readAbove isModule 1 s rfl whole

theorem Stands.passesTerm (h : Stands isModule tree s t) :
    Stream.PassesTerm Symbol.separators s t := by
  obtain ⟨words, written, shown⟩ := h
  exact ⟨words, shown, written.enclose, written.isReturn_eq_false⟩

end Expression

end FrontEnd
