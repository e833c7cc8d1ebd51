import FrontEnd.Proofs.Visibility
import FrontEnd.Proofs.History
import Mathlib.Logic.Function.Iterate

/-!
Expressions as they are written. A tree is written with parentheses around each operand that binds
looser than its place allows, and its words are read back as the same tree. A text is therefore
evaluated as its tree is, whatever operators stand in it side by side.
-/

namespace FrontEnd

namespace Stream

variable {s : Stream} {kind : TokenKind} {span : Span} {words rest : List Token}

theorem kind_of_ahead (h : s.ahead = ⟨kind, span⟩ :: rest) : s.kind = kind := by
  rw [Stream.kind, h]

theorem span_of_ahead (h : s.ahead = ⟨kind, span⟩ :: rest) : s.span = span := by
  rw [Stream.span, h]

theorem isAt_of_ahead {symbol wanted : Symbol}
    (h : s.ahead = ⟨.symbol symbol, span⟩ :: rest) : s.isAt wanted = decide (symbol = wanted) := by
  rw [isAt, kind_of_ahead h]
  exact decide_eq_decide.2 Option.some_inj

theorem kind_of_isAt {wanted : Symbol} (h : s.isAt wanted = true) : s.kind = .symbol wanted := by
  have symbol : s.kind.symbol? = some wanted := of_decide_eq_true h
  cases hk : s.kind <;> rw [hk] at symbol <;> cases symbol
  rfl

theorem ahead_iterate_advance (h : s.ahead = words ++ rest) :
    (advance^[words.length] s).ahead = rest := by
  induction words generalizing s with
  | nil => exact h
  | cons word words ih => exact ih (ahead_advance h)

theorem iterate_advance_append (s : Stream) (words more : List Token) :
    advance^[(words ++ more).length] s = advance^[more.length] (advance^[words.length] s) := by
  rw [List.length_append, Nat.add_comm, Function.iterate_add_apply]

end Stream

/-- What was read, and the stream behind it. -/
def Rest.got {s : Stream} {α : Type} (r : Rest s α) : α × Stream :=
  (r.value, r.stream)

variable {isModule : String → Bool} {s t : Stream}

/-! ### References -/

namespace Reference

/-- The words of a reference. A dot is written behind the name of a module only. -/
inductive WrittenAs (isModule : String → Bool) : Reference → List Token → Prop
  | plain (name : String) (span : Span) :
      WrittenAs isModule (.plain name span) [⟨.ident name, span⟩]
  | member {file : String} (isFile : isModule file = true) (name : String) (start dot span : Span) :
      WrittenAs isModule (.member file start (.ok (name, span)))
        [⟨.ident file, start⟩, ⟨.symbol .dot, dot⟩, ⟨.ident name, span⟩]

/-- The plain name that a reference is. -/
def plain? : Reference → Option String
  | plain name _ => some name
  | member .. => none

theorem read?_of_isAt_dot {name : String} (h : s.kind = .ident name)
    (dot : isModule name = true → s.advance.isAt .dot = false) :
    ∃ past : Past s Reference, read? isModule s = some past ∧ past.value = .plain name s.span ∧
      past.stream = s.advance := by
  obtain ⟨behind, named⟩ := Stream.name?_of_kind h
  refine ⟨_, by rw [read?, named, Option.map_some], ?_⟩
  unfold readFrom
  dsimp only
  split
  · rename_i found
    split
    · rename_i file
      have here := (Stream.isAt_of_skip? found).1
      rw [dot file] at here
      cases here
    · exact ⟨rfl, rfl⟩
  · exact ⟨rfl, rfl⟩

theorem read?_of_writtenAs {r : Reference} {words rest : List Token}
    (h : r.WrittenAs isModule words) (ahead : s.ahead = words ++ rest)
    (dot : ∀ name ∈ r.plain?, isModule name = true →
      (Stream.advance^[words.length] s).isAt .dot = false) :
    ∃ past : Past s Reference, read? isModule s = some past ∧ past.value = r ∧
      past.stream = Stream.advance^[words.length] s := by
  cases h with
  | plain name span =>
    obtain ⟨past, found, value, stream⟩ :=
      read?_of_isAt_dot (Stream.kind_of_ahead ahead) (dot _ rfl)
    exact ⟨past, found, by rw [value, Stream.span_of_ahead ahead], stream⟩
  | @member file isFile name start between span =>
    have behind := Stream.ahead_advance ahead
    have last := Stream.ahead_advance behind
    have spelled : s.Spells file name s.advance.advance.advance :=
      ⟨Stream.kind_of_ahead ahead, Stream.isAt_of_ahead behind, Stream.kind_of_ahead last, rfl⟩
    obtain ⟨past, found, stream, value⟩ := read?_of_spells spelled isFile
    rw [Stream.span_of_ahead ahead, Stream.span_of_ahead last] at value
    exact ⟨past, found, value, stream⟩

end Reference

namespace Expression

/-! ### Reading, form by form -/

theorem unaryOperator?_of_literal? {kind : TokenKind} {value : Constant}
    (h : literal? kind = some value) : unaryOperator? kind = none := by
  cases kind <;> first | rfl | cases h

theorem got_readOperand_literal {value : Constant} (h : literal? s.kind = some value) :
    (readOperand isModule s).got = (.literal value, s.advance) := by
  rw [readOperand]
  split
  · rename_i prefixed
    cases prefixed.symm.trans (unaryOperator?_of_literal? h)
  · split
    · rename_i found
      cases found.symm.trans h
      rfl
    · rename_i found
      cases found.symm.trans h

theorem got_readOperand_unary {op : UnaryOperator} (h : unaryOperator? s.kind = some op) :
    (readOperand isModule s).got =
      (.unary op s.span (readOperand isModule s.advance).value,
        (readOperand isModule s.advance).stream) := by
  conv => lhs; rw [readOperand]
  split
  · rename_i found
    cases found.symm.trans h
    rfl
  · rename_i found
    cases found.symm.trans h

theorem closeGroup_of_skip? {rest : Shorter s} (h : s.skip? .closeParen = some rest) :
    closeGroup s = (⟨none, rest.stream, rest.lt⟩ : Past s _).rest := by
  rw [closeGroup, h]

theorem closeGroup_of_skip?_eq_none (h : s.skip? .closeParen = none) : closeGroup s =
    .here s (some ⟨.expected Symbol.closeParen.spelling s.kind.spelling, s.span⟩) := by
  rw [closeGroup, h]

theorem got_readOperand_group (h : s.isAt .openParen = true) :
    (readOperand isModule s).got =
      (.group (readAbove isModule 1 s.advance).value
          (closeGroup (readAbove isModule 1 s.advance).stream).value,
        (closeGroup (readAbove isModule 1 s.advance).stream).stream) := by
  obtain ⟨_, opened⟩ := Stream.skip?_of_isAt h nofun
  have kind := Stream.kind_of_isAt h
  rw [readOperand]
  split
  · rename_i prefixed
    rw [kind] at prefixed
    cases prefixed
  · split
    · rename_i literal
      rw [kind] at literal
      cases literal
    · rw [opened]
      rfl

theorem got_readOperand_name {past : Past s Reference}
    (h : Reference.read? isModule s = some past) :
    (readOperand isModule s).got = (.name past.value, past.stream) := by
  obtain ⟨named, found, _⟩ := Option.map_eq_some_iff.1 h
  have kind := Stream.kind_of_name? found
  rw [readOperand]
  split
  · rename_i prefixed
    rw [kind] at prefixed
    cases prefixed
  · split
    · rename_i literal
      rw [kind] at literal
      cases literal
    · split
      · rename_i opened
        have here := of_decide_eq_true (Stream.isAt_of_skip? opened).1
        rw [kind] at here
        cases here
      · rw [h]
        rfl

theorem got_readOperand_missing (prefixed : unaryOperator? s.kind = none)
    (literal : literal? s.kind = none) (opened : s.skip? .openParen = none)
    (named : Reference.read? isModule s = none) :
    (readOperand isModule s).got =
      (.missing ⟨.expressionExpected s.kind.spelling, s.span⟩, s) := by
  rw [readOperand]
  split
  · rename_i found
    cases prefixed.symm.trans found
  · split
    · rename_i found
      cases literal.symm.trans found
    · rw [opened, named]
      rfl

theorem got_readAbove {lowest : Nat} {left : Expression}
    (h : (readOperand isModule s).got = (left, t)) :
    (readAbove isModule lowest s).got = (readOperators isModule lowest left t).got := by
  obtain ⟨rfl, rfl⟩ := Prod.mk.inj h
  rw [readAbove]
  rfl

/-- The words of an operand end where no operator follows that binds tight enough. -/
theorem got_readOperators_stop {lowest : Nat} {left : Expression}
    (h : ∀ op ∈ operator? s.kind, op.precedence < lowest) :
    (readOperators isModule lowest left s).got = (left, s) := by
  rw [readOperators]
  split
  · rename_i op found
    rw [if_pos (h op found)]
    rfl
  · rfl

theorem got_readOperators_next {lowest : Nat} {op : Operator} {left right : Expression}
    (h : operator? s.kind = some op) (hl : lowest ≤ op.precedence)
    (hr : (readAbove isModule (op.precedence + 1) s.advance).got = (right, t)) :
    (readOperators isModule lowest left s).got =
      (readOperators isModule lowest (.binary op s.span left right) t).got := by
  obtain ⟨rfl, rfl⟩ := Prod.mk.inj hr
  conv => lhs; rw [readOperators]
  split
  · rename_i found
    cases found.symm.trans h
    rw [if_neg (Nat.not_lt.2 hl)]
    rfl
  · rename_i found
    cases found.symm.trans h

/-! ### Parentheses -/

/-- Binds tighter than all operators: what a prefix operator stands in front of. -/
def tightest : Nat := 6

theorem precedence_lt_tightest (op : Operator) : op.precedence < tightest := by
  cases op <;> decide

/-- No operator of the tree that is outside all parentheses binds looser than its place allows, nor
looser than `lowest`. -/
def Fits (lowest : Nat) : Expression → Prop
  | literal _ => True
  | name _ => True
  | group inner _ => inner.Fits 1
  | unary _ _ operand => operand.Fits tightest
  | binary op _ left right =>
    lowest ≤ op.precedence ∧ left.Fits op.precedence ∧ right.Fits (op.precedence + 1)
  | missing _ => True

/-- Puts parentheses around the operators that bind looser than their place allows. -/
def parenthesize (lowest : Nat) : Expression → Expression
  | literal value => literal value
  | name reference => name reference
  | group inner unclosed? => group (inner.parenthesize 1) unclosed?
  | unary op span operand => unary op span (operand.parenthesize tightest)
  | binary op span left right =>
    let whole := binary op span (left.parenthesize op.precedence)
      (right.parenthesize (op.precedence + 1))
    if lowest ≤ op.precedence then whole else group whole none
  | missing fault => missing fault

theorem fits_parenthesize (lowest : Nat) (tree : Expression) :
    (tree.parenthesize lowest).Fits lowest := by
  induction tree generalizing lowest with
  | literal value => trivial
  | name reference => trivial
  | group inner unclosed? ih => exact ih 1
  | unary op span operand ih => exact ih tightest
  | binary op span left right ihl ihr =>
    have operands := And.intro (ihl op.precedence) (ihr (op.precedence + 1))
    unfold parenthesize
    dsimp only
    split
    · rename_i tight
      exact ⟨tight, operands⟩
    · exact ⟨by cases op <;> decide, operands⟩
  | missing fault => trivial

/-- Parentheses are put only where they are needed. -/
theorem parenthesize_of_fits {lowest : Nat} {tree : Expression} (h : tree.Fits lowest) :
    tree.parenthesize lowest = tree := by
  induction tree generalizing lowest with
  | literal value => rfl
  | name reference => rfl
  | group inner unclosed? ih => rw [parenthesize, ih h]
  | unary op span operand ih => rw [parenthesize, ih h]
  | binary op span left right ihl ihr =>
    obtain ⟨tight, fitsLeft, fitsRight⟩ := h
    rw [parenthesize, ihl fitsLeft, ihr fitsRight]
    exact if_pos tight
  | missing fault => rfl

/-- Parentheses say nothing but what belongs together. -/
theorem evaluate_parenthesize (mode : Mode) (lowest : Nat) (tree : Expression) :
    (tree.parenthesize lowest).evaluate mode = tree.evaluate mode := by
  induction tree generalizing lowest with
  | literal value => rfl
  | name reference => rfl
  | group inner unclosed? ih => rw [parenthesize, evaluate, evaluate, ih]
  | unary op span operand ih => rw [parenthesize, evaluate, evaluate, ih]
  | binary op span left right ihl ihr =>
    have operands : (binary op span (left.parenthesize op.precedence)
        (right.parenthesize (op.precedence + 1))).evaluate mode =
          (binary op span left right).evaluate mode := by
      rw [evaluate, evaluate, ihl, ihr]
    unfold parenthesize
    dsimp only
    split
    · exact operands
    · rw [evaluate, operands]
      exact bind_pure _
  | missing fault => rfl

/-- The operator behind an operand binds looser than what was asked for. -/
theorem loose_readOperators (isModule : String → Bool) (lowest : Nat) (left : Expression)
    (s : Stream) : ∀ op ∈ operator? (readOperators isModule lowest left s).stream.kind,
      op.precedence < lowest := by
  rw [readOperators]
  split
  · rename_i op here
    split
    · rename_i loose
      intro op' found
      cases here.symm.trans found
      exact loose
    · have shorter := (advance_behind_of_operator? here).2
      have within := (readAbove isModule (op.precedence + 1) s.advance).le.2
      exact loose_readOperators isModule lowest _ _
  · rename_i here
    intro op found
    cases here.symm.trans found
termination_by s.size
decreasing_by exact Nat.lt_of_le_of_lt within shorter

theorem loose_readAbove (isModule : String → Bool) (lowest : Nat) (s : Stream) :
    ∀ op ∈ operator? (readAbove isModule lowest s).stream.kind, op.precedence < lowest := by
  rw [readAbove]
  exact loose_readOperators isModule lowest _ _

mutual

theorem fits_readOperand (isModule : String → Bool) (level : Nat) (s : Stream) :
    (readOperand isModule s).value.Fits level := by
  rw [readOperand]
  split
  · rename_i prefixed
    have shorter := (advance_behind_of_unaryOperator? prefixed).2
    exact fits_readOperand isModule tightest s.advance
  · split
    · trivial
    · split
      · rename_i s₁ h₁ _
        have shorter := h₁.2
        exact fits_readAbove isModule 1 s₁
      · split <;> trivial
termination_by 3 * s.size

theorem fits_readAbove (isModule : String → Bool) (lowest : Nat) (s : Stream) :
    (readAbove isModule lowest s).value.Fits lowest := by
  rw [readAbove]
  have fits (level : Nat) := fits_readOperand isModule level s
  generalize readOperand isModule s = operand at fits ⊢
  obtain ⟨left, s₁, h₁⟩ := operand
  have within := h₁.2
  exact fits_readOperators isModule lowest left s₁ (fits lowest) fun op _ => fits op.precedence
termination_by 3 * s.size + 2
decreasing_by all_goals omega

theorem fits_readOperators (isModule : String → Bool) (lowest : Nat) (left : Expression)
    (s : Stream) (fits : left.Fits lowest)
    (next : ∀ op ∈ operator? s.kind, left.Fits op.precedence) :
    (readOperators isModule lowest left s).value.Fits lowest := by
  rw [readOperators]
  split
  · rename_i op here
    split
    · exact fits
    · rename_i tight
      have shorter := (advance_behind_of_operator? here).2
      have fitsRight := fits_readAbove isModule (op.precedence + 1) s.advance
      have loose := loose_readAbove isModule (op.precedence + 1) s.advance
      generalize readAbove isModule (op.precedence + 1) s.advance = behind at fitsRight loose ⊢
      obtain ⟨right, s₁, h₁⟩ := behind
      have within := h₁.2
      have operands := And.intro (next op here) fitsRight
      exact fits_readOperators isModule lowest (.binary op s.span left right) s₁
        ⟨Nat.le_of_not_lt tight, operands⟩
        fun op' found => ⟨Nat.le_of_lt_succ (loose op' found), operands⟩
  · exact fits
termination_by 3 * s.size + 1

end

/-- What is read needs no parentheses that it does not have. -/
theorem parenthesize_read (isModule : String → Bool) (s : Stream) :
    (read isModule s).value.parenthesize 1 = (read isModule s).value :=
  parenthesize_of_fits (fits_readAbove isModule 1 s)

/-! ### The words of a tree -/

/-- The words of a tree in order, with the parentheses that the tree holds. -/
inductive WrittenAs (isModule : String → Bool) : Expression → List Token → Prop
  | literal {kind : TokenKind} {value : Constant} (h : literal? kind = some value) (span : Span) :
      WrittenAs isModule (.literal value) [⟨kind, span⟩]
  | name {r : Reference} {words : List Token} (written : r.WrittenAs isModule words) :
      WrittenAs isModule (.name r) words
  | group {inner : Expression} {words : List Token} (opening : Span)
      (written : WrittenAs isModule inner words) (closing : Span) :
      WrittenAs isModule (.group inner none)
        (⟨.symbol .openParen, opening⟩ :: (words ++ [⟨.symbol .closeParen, closing⟩]))
  | unary {kind : TokenKind} {op : UnaryOperator} {operand : Expression} {words : List Token}
      (h : unaryOperator? kind = some op) (span : Span) (written : WrittenAs isModule operand words) :
      WrittenAs isModule (.unary op span operand) (⟨kind, span⟩ :: words)
  | binary {left right : Expression} {before behind : List Token} (op : Operator) (span : Span)
      (first : WrittenAs isModule left before) (second : WrittenAs isModule right behind) :
      WrittenAs isModule (.binary op span left right)
        (before ++ ⟨.symbol (.operator op), span⟩ :: behind)

/-- Nothing is missing in the tree, and it holds values that can be written. -/
def IsComplete (isModule : String → Bool) : Expression → Prop
  | literal value => ∃ kind, literal? kind = some value
  | name reference => ∃ words, reference.WrittenAs isModule words
  | group inner unclosed? => inner.IsComplete isModule ∧ unclosed? = none
  | unary _ _ operand => operand.IsComplete isModule
  | binary _ _ left right => left.IsComplete isModule ∧ right.IsComplete isModule
  | missing _ => False

theorem IsComplete.parenthesize {tree : Expression} (h : tree.IsComplete isModule) (lowest : Nat) :
    (tree.parenthesize lowest).IsComplete isModule := by
  induction tree generalizing lowest with
  | literal value => exact h
  | name reference => exact h
  | group inner unclosed? ih => exact ⟨ih h.1 1, h.2⟩
  | unary op span operand ih => exact ih h tightest
  | binary op span left right ihl ihr =>
    have operands := And.intro (ihl h.1 op.precedence) (ihr h.2 (op.precedence + 1))
    unfold Expression.parenthesize
    dsimp only
    split
    · exact operands
    · exact ⟨operands, rfl⟩
  | missing fault => exact h

/-- Every complete tree can be written. -/
theorem IsComplete.exists_writtenAs {tree : Expression} (h : tree.IsComplete isModule) :
    ∃ words, tree.WrittenAs isModule words := by
  induction tree with
  | literal value =>
    obtain ⟨kind, value⟩ := h
    exact ⟨[⟨kind, ⟨.origin, .origin⟩⟩], .literal value _⟩
  | name reference =>
    obtain ⟨words, written⟩ := h
    exact ⟨words, .name written⟩
  | group inner unclosed? ih =>
    obtain ⟨words, written⟩ := ih h.1
    obtain rfl := h.2
    exact ⟨_, .group ⟨.origin, .origin⟩ written ⟨.origin, .origin⟩⟩
  | unary op span operand ih =>
    obtain ⟨words, written⟩ := ih h
    have spelled : ∃ kind, unaryOperator? kind = some op := by
      cases op with
      | negate => exact ⟨.symbol (.operator .subtract), rfl⟩
      | not => exact ⟨.symbol .not, rfl⟩
    obtain ⟨kind, prefixed⟩ := spelled
    exact ⟨_, .unary prefixed span written⟩
  | binary op span left right ihl ihr =>
    obtain ⟨before, first⟩ := ihl h.1
    obtain ⟨behind, second⟩ := ihr h.2
    exact ⟨_, .binary op span first second⟩
  | missing fault => exact h.elim

/-- The plain name that is the last word of a tree. -/
def lastName? : Expression → Option String
  | name reference => reference.plain?
  | unary _ _ operand => operand.lastName?
  | binary _ _ _ right => right.lastName?
  | _ => none

theorem got_readAbove_of_writtenAs {tree : Expression} {words rest : List Token}
    {level lowest : Nat} (written : tree.WrittenAs isModule words) (fits : tree.Fits level)
    (hl : lowest ≤ level) (ahead : s.ahead = words ++ rest)
    (ends : ∀ op ∈ operator? (Stream.advance^[words.length] s).kind, op.precedence ≤ level)
    (dot : ∀ name ∈ tree.lastName?, isModule name = true →
      (Stream.advance^[words.length] s).isAt .dot = false) :
    (readAbove isModule lowest s).got =
      (readOperators isModule lowest tree (Stream.advance^[words.length] s)).got := by
  induction written generalizing level lowest s rest with
  | literal h span =>
    rw [← Stream.kind_of_ahead ahead] at h
    exact got_readAbove (got_readOperand_literal h)
  | name written =>
    obtain ⟨past, found, rfl, stream⟩ := Reference.read?_of_writtenAs written ahead dot
    rw [← stream]
    exact got_readAbove (got_readOperand_name found)
  | @group inner words opening written closing ih =>
    have behind : s.advance.ahead = words ++ ⟨.symbol .closeParen, closing⟩ :: rest := by
      rw [Stream.ahead_advance (ahead.trans List.cons_append), List.append_assoc,
        List.singleton_append]
    have last := Stream.ahead_iterate_advance behind
    have operator : operator? (Stream.advance^[words.length] s.advance).kind = none := by
      rw [Stream.kind_of_ahead last]
      rfl
    have inside := ih fits (Nat.le_refl 1) behind (by rw [operator]; nofun) fun _ _ _ =>
      Stream.isAt_of_ahead last
    rw [got_readOperators_stop (by rw [operator]; nofun)] at inside
    obtain ⟨value, stream⟩ := Prod.mk.inj inside
    have whole : (readOperand isModule s).got = _ :=
      got_readOperand_group (Stream.isAt_of_ahead ahead)
    have here : Stream.isAt _ .closeParen = true := Stream.isAt_of_ahead last
    obtain ⟨_, closed⟩ := Stream.skip?_of_isAt here nofun
    rw [value, stream, closeGroup_of_skip? closed] at whole
    rw [List.length_cons, Function.iterate_succ_apply, List.length_append, List.length_singleton,
      Function.iterate_succ_apply']
    exact got_readAbove whole
  | @unary kind op operand words h span written ih =>
    have loose (op : Operator) := precedence_lt_tightest op
    have inside := ih fits (Nat.le_refl _) (Stream.ahead_advance ahead)
      (fun op _ => (loose op).le) dot
    rw [got_readAbove rfl, got_readOperators_stop fun op _ => loose op,
      got_readOperators_stop fun op _ => loose op] at inside
    obtain ⟨value, stream⟩ := Prod.mk.inj inside
    rw [← Stream.kind_of_ahead ahead] at h
    have whole : (readOperand isModule s).got = _ := got_readOperand_unary h
    rw [value, stream, Stream.span_of_ahead ahead] at whole
    exact got_readAbove whole
  | @binary left right before behind op span first second ihl ihr =>
    obtain ⟨tight, fitsLeft, fitsRight⟩ := fits
    rw [List.append_assoc, List.cons_append] at ahead
    have next := Stream.ahead_iterate_advance ahead
    have operator : operator? (Stream.advance^[before.length] s).kind = some op := by
      rw [Stream.kind_of_ahead next]
      rfl
    -- the left operand stands in front of an operator that binds as tight as its place allows
    have start := ihl fitsLeft (hl.trans tight) ahead
      (fun op' found => by rw [← Option.some_inj.1 (operator.symm.trans found)])
      fun _ _ _ => Stream.isAt_of_ahead next
    rw [Stream.iterate_advance_append, List.length_cons, Function.iterate_succ_apply] at ends dot ⊢
    -- the right one, in front of an operator that binds looser
    have behind := ihr fitsRight (Nat.le_refl _) (Stream.ahead_advance next)
      (fun op' found => (ends op' found).trans (tight.trans (Nat.le_succ _))) dot
    rw [got_readOperators_stop fun op' found => Nat.lt_succ_of_le ((ends op' found).trans tight)]
      at behind
    rw [start, got_readOperators_next operator (hl.trans tight) behind, Stream.span_of_ahead next]

/-- Reading gives back the tree that was written, and stops behind its words. -/
theorem got_read_of_writtenAs {tree : Expression} {words rest : List Token}
    (written : tree.WrittenAs isModule words) (fits : tree.Fits 1) (ahead : s.ahead = words ++ rest)
    (ends : operator? (Stream.advance^[words.length] s).kind = none)
    (dot : ∀ name ∈ tree.lastName?, isModule name = true →
      (Stream.advance^[words.length] s).isAt .dot = false) :
    (read isModule s).got = (tree, Stream.advance^[words.length] s) := by
  rw [read, got_readAbove_of_writtenAs written fits (Nat.le_refl 1) ahead
    (by rw [ends]; nofun) dot, got_readOperators_stop (by rw [ends]; nofun)]

end Expression

/-! ### What a text evaluates to -/

/-- A tree that is read evaluates to what it evaluates to without its parentheses. -/
theorem Action.run_expression_of_got {tree : Expression} {stream behind : Stream} (mode : Mode)
    (setup : Setup) (s : Session)
    (got : (Expression.read s.isModule stream).got = (tree.parenthesize 1, behind)) :
    ∃ within : behind.Within stream, (expression mode stream).run setup s =
      (tree.evaluate mode >>= fun value => pure ⟨value, behind, within⟩).run setup s := by
  obtain ⟨value, rfl⟩ := Prod.mk.inj got
  refine ⟨(Expression.read s.isModule stream).le, ?_⟩
  rw [← Expression.evaluate_parenthesize mode 1 tree, ← value]
  rfl

/-- A text evaluates to what its tree evaluates to from the leaves up, the first error included, and
is read up to the end of its words. What follows must not go on with it: no operator, and no dot
where the last word is the name of a module. -/
theorem Action.run_expression_of_writtenAs {tree : Expression} {words rest : List Token}
    {stream : Stream} (mode : Mode) (setup : Setup) (s : Session)
    (written : (tree.parenthesize 1).WrittenAs s.isModule words)
    (ahead : stream.ahead = words ++ rest)
    (ends : Expression.operator? (Stream.advance^[words.length] stream).kind = none)
    (dot : ∀ name ∈ (tree.parenthesize 1).lastName?, s.isModule name = true →
      (Stream.advance^[words.length] stream).isAt .dot = false) :
    ∃ within : (Stream.advance^[words.length] stream).Within stream,
      (expression mode stream).run setup s =
        (tree.evaluate mode >>= fun value =>
          pure ⟨value, Stream.advance^[words.length] stream, within⟩).run setup s :=
  run_expression_of_got mode setup s
    (Expression.got_read_of_writtenAs written (tree.fits_parenthesize 1) ahead ends dot)

/-- A constant of the root has the name of the module that the root imports. -/
def namesakeProgram : Setup where
  settings := .standard
  sources := ⟨fun path => .ok (if path = "m.um" then "const x* = 2\n"
    else "import \"m.um\"\nconst m = 1\nfn main() \x7b\x7d\n")⟩
  hosts := ⟨[]⟩

/-- A word at the start of a file. -/
def Token.first (kind : TokenKind) : Token :=
  ⟨kind, ⟨.origin, .origin⟩⟩

/-- The constant `m` of the root. -/
def namesake : Expression :=
  .name (.plain "m" ⟨.origin, .origin⟩)

def productTree : Expression :=
  .binary .multiply ⟨.origin, .origin⟩
    (.name (.member "m" ⟨.origin, .origin⟩ (.ok ("x", ⟨.origin, .origin⟩))))
    (.binary .add ⟨.origin, .origin⟩ namesake (.literal (.int 1)))

/-- The words `m.x * (m + 1)`. -/
def productStream : Stream where
  ahead := [.ident "m", .symbol .dot, .ident "x", .symbol (.operator .multiply),
    .symbol .openParen, .ident "m", .symbol (.operator .add), .int 1,
    .symbol .closeParen].map .first
  finish := ⟨.origin, .origin⟩
  index := 0

theorem productTree_writtenAs {isModule : String → Bool} (h : isModule "m" = true) :
    (productTree.parenthesize 1).WrittenAs isModule productStream.ahead :=
  .binary .multiply _ (.name (.member h "x" _ ⟨.origin, .origin⟩ _))
    (.group ⟨.origin, .origin⟩ (.binary .add _ (.name (.plain "m" _))
      (.literal rfl ⟨.origin, .origin⟩)) ⟨.origin, .origin⟩)

theorem productTree_run : ∃ s ∈ history namesakeProgram "main.um",
    (productTree.parenthesize 1).WrittenAs s.isModule productStream.ahead ∧
      ∃ within : (Stream.advance^[9] productStream).Within productStream,
        (Action.expression .constant productStream).run namesakeProgram s =
          (productTree.evaluate .constant >>= fun value =>
            pure ⟨value, Stream.advance^[9] productStream, within⟩).run namesakeProgram s := by
  have checked : ∃ s ∈ history namesakeProgram "main.um", s.isModule "m" = true :=
    by decide +kernel
  obtain ⟨s, hs, file⟩ := checked
  have written := productTree_writtenAs file
  exact ⟨s, hs, written, Action.run_expression_of_writtenAs .constant namesakeProgram s written
    (List.append_nil _).symm rfl nofun⟩

/-- The words `m.x`. -/
def dottedStream : Stream where
  ahead := [.ident "m", .symbol .dot, .ident "x"].map .first
  finish := ⟨.origin, .origin⟩
  index := 0

/-- How many words are ahead of what was read. -/
def Action.wordsAhead? {stream : Stream} {α : Type} :
    EStateM.Result Diagnostic Session (Rest stream α) → Option Nat
  | .ok rest _ => some rest.stream.size
  | .error .. => none

/-- The words of the constant `m` are not read as such in front of a dot. -/
theorem namesake_run : ∃ s ∈ history namesakeProgram "main.um",
    (namesake.parenthesize 1).WrittenAs s.isModule [.first (.ident "m")] ∧
      dottedStream.ahead = [.first (.ident "m")] ++ dottedStream.advance.ahead ∧
      Expression.operator? dottedStream.advance.kind = none ∧
      ¬ ∃ within : dottedStream.advance.Within dottedStream,
        (Action.expression .constant dottedStream).run namesakeProgram s =
          (namesake.evaluate .constant >>= fun value =>
            pure ⟨value, dottedStream.advance, within⟩).run namesakeProgram s := by
  have checked : ∃ s ∈ history namesakeProgram "main.um", Action.wordsAhead?
      ((Action.expression .constant dottedStream).run namesakeProgram s) = some 0 := by
    decide +kernel
  obtain ⟨s, hs, none⟩ := checked
  refine ⟨s, hs, .name (.plain "m" _), rfl, rfl, ?_⟩
  rintro ⟨within, same⟩
  rw [same, Action.run_bind] at none
  cases he : (namesake.evaluate .constant).run namesakeProgram s with
  | ok value t =>
    rw [he] at none
    cases none
  | error d t =>
    rw [he] at none
    cases none

end FrontEnd
