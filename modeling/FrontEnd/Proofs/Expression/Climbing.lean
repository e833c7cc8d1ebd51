import FrontEnd.Proofs.Expression.Rendering
import FrontEnd.Proofs.TypeExpression.Extends

/-!
Evaluating while reading. An expression can be evaluated in one pass over its words, each operator
as soon as its right operand is there. This comes to the same as reading the whole tree first, for
what has been evaluated does not change how the next words are read.
-/

namespace FrontEnd

namespace Action

mutual

/-- Reads an operand and evaluates it at once. -/
def climbOperand (mode : Mode) (stream : Stream) : Action (Rest stream TypedValue) :=
  match hu : Expression.unaryOperator? stream.kind with
  | some op => do
    have h := Expression.advance_behind_of_unaryOperator? hu
    let operand ← climbOperand mode stream.advance
    return ⟨← applyUnary mode op operand.value stream.span, operand.stream,
      (operand.le.behind h).within⟩
  | none =>
    match hl : Expression.literal? stream.kind with
    | some value => do
      have h := Expression.advance_behind_of_literal? hl
      return ⟨← pushConstant mode value (← literalType value), stream.advance, h.within⟩
    | none =>
      match stream.skip? .openParen with
      | some ⟨(), s₁, h₁⟩ => do
        let inner ← climbAbove mode 1 s₁
        let closed ← eat .closeParen inner.stream
        return ⟨inner.value, closed.stream, ((closed.lt.of_within inner.le).trans h₁).within⟩
      | none =>
        match stream.ident? with
        | some _ => do
          let named ← reference stream
          return ⟨← identValue mode named.value.2 stream.span, named.stream, named.lt.within⟩
        | none => fail (.expressionExpected stream.kind.spelling) stream.span
termination_by 3 * stream.size

/-- Evaluates operands joined by operators that bind at least as tight as `lowest`. -/
def climbAbove (mode : Mode) (lowest : Nat) (stream : Stream) : Action (Rest stream TypedValue) := do
  let ⟨left, s₁, h₁⟩ ← climbOperand mode stream
  return (← climbOperators mode lowest left s₁).within h₁
termination_by 3 * stream.size + 2
decreasing_by all_goals omega

/-- Goes on behind an operand with the value `left`. -/
def climbOperators (mode : Mode) (lowest : Nat) (left : TypedValue) (stream : Stream) :
    Action (Rest stream TypedValue) :=
  match ho : Expression.operator? stream.kind with
  | some op =>
    if op.precedence < lowest then return .here stream left
    else do
      have h := Expression.advance_behind_of_operator? ho
      let ⟨right, s₁, h₁⟩ ← climbAbove mode (op.precedence + 1) stream.advance
      let value ← applyBinary mode op left right stream.span
      return ((← climbOperators mode lowest value s₁).after (h₁.behind h)).rest
  | none => return .here stream left
termination_by 3 * stream.size + 1

end

end Action

/-! ### One pass or two -/

/-- Evaluates a tree that has been read. -/
def Rest.evaluate {stream : Stream} (mode : Mode) (r : Rest stream Expression) :
    Action (Rest stream TypedValue) := do
  return ⟨← r.value.evaluate mode, r.stream, r.le⟩

theorem Rest.evaluate_of_got {stream rest : Stream} {r : Rest stream Expression}
    {tree : Expression} (mode : Mode) (h : r.got = (tree, rest)) :
    ∃ within : rest.Within stream,
      r.evaluate mode = tree.evaluate mode >>= fun v => pure ⟨v, rest, within⟩ := by
  obtain ⟨rfl, rfl⟩ := Prod.mk.inj h
  exact ⟨r.le, rfl⟩

/-- Evaluating an expression does not change what is a module. -/
theorem isModule_of_evaluate {setup : Setup} {mode : Mode} {tree : Expression} {s t : Session}
    {v : TypedValue} (h : (tree.evaluate mode).Yields setup s v t) : t.isModule = s.isModule := by
  have modules := (Action.extends_evaluate (P := fun _ => True) (Nat.zero_le _) h).modules
  unfold Session.isModule
  rw [modules]

namespace Reference

variable {isModule : String → Bool} {stream : Stream}

theorem read?_of_ident? {name : String} (h : stream.ident? = some name) :
    ∃ past, read? isModule stream = some past := by
  unfold read? Stream.name?
  split
  · exact ⟨_, rfl⟩
  · rename_i none
    cases none.symm.trans h

theorem read?_eq_none (h : stream.ident? = none) : read? isModule stream = none := by
  unfold read? Stream.name?
  split
  · rename_i some
    cases h.symm.trans some
  · rfl

theorem span_of_read? {past : Past stream Reference} (h : read? isModule stream = some past) :
    past.value.span = stream.span := by
  obtain ⟨_, _, value⟩ | ⟨_, _, value, _⟩ := of_read? h <;> rw [value] <;> rfl

end Reference

namespace Action

variable {α β : Type} {setup : Setup} {s : Session} {stream : Stream}

theorem run_congr_bind {action other : Action α} (h : action.run setup s = other.run setup s)
    (f : α → Action β) : (action >>= f).run setup s = (other >>= f).run setup s := by
  rw [run_bind, run_bind, h]

/-- What follows a step runs from where the step ends. -/
theorem run_bind_congr {action : Action α} {f g : α → Action β}
    (h : ∀ v t, action.Yields setup s v t → (f v).run setup t = (g v).run setup t) :
    (action >>= f).run setup s = (action >>= g).run setup s := by
  rw [run_bind, run_bind]
  cases hr : action.run setup s with
  | ok v t => exact h v t hr
  | error d t => rfl

theorem climbOperators_stop {mode : Mode} {lowest : Nat} {left : TypedValue}
    (h : ∀ op ∈ Expression.operator? stream.kind, op.precedence < lowest) :
    climbOperators mode lowest left stream = pure (.here stream left) := by
  rw [climbOperators]
  split
  · rename_i op here
    rw [if_pos (h op here)]
  · rfl

theorem climbOperators_next {mode : Mode} {lowest : Nat} {op : Operator} {left : TypedValue}
    (h : Expression.operator? stream.kind = some op) (tight : lowest ≤ op.precedence) :
    climbOperators mode lowest left stream = (do
      let right ← climbAbove mode (op.precedence + 1) stream.advance
      let value ← applyBinary mode op left right.value stream.span
      let whole ← climbOperators mode lowest value right.stream
      return (whole.after (right.le.behind (Expression.advance_behind_of_operator? h))).rest) := by
  conv => lhs; rw [climbOperators]
  split
  · rename_i here
    cases here.symm.trans h
    rw [if_neg (Nat.not_lt.2 tight)]
  · rename_i here
    cases here.symm.trans h

open Expression

mutual

theorem run_climbOperand (mode : Mode) (stream : Stream) (setup : Setup) (s : Session) :
    (climbOperand mode stream).run setup s =
      ((readOperand s.isModule stream).evaluate mode).run setup s := by
  rw [climbOperand]
  split
  · rename_i op prefixed
    have shorter := (advance_behind_of_unaryOperator? prefixed).2
    obtain ⟨_, read⟩ := Rest.evaluate_of_got mode
      (got_readOperand_unary prefixed : (readOperand s.isModule stream).got = _)
    rw [read, run_congr_bind (run_climbOperand mode stream.advance setup s)]
    simp only [Rest.evaluate, Expression.evaluate, bind_assoc, pure_bind]
  · rename_i noPrefix
    split
    · rename_i value literal
      obtain ⟨_, read⟩ := Rest.evaluate_of_got mode
        (got_readOperand_literal literal : (readOperand s.isModule stream).got = _)
      rw [read]
      simp only [Expression.evaluate, bind_assoc]
    · rename_i noLiteral
      split
      · rename_i s₁ h₁ opened
        obtain ⟨here, rfl⟩ := Stream.isAt_of_skip? opened
        have shorter := h₁.2
        have got : (readOperand s.isModule stream).got = _ := got_readOperand_group here
        rw [run_congr_bind (run_climbAbove mode 1 stream.advance setup s)]
        cases hc : (readAbove s.isModule 1 stream.advance).stream.skip? .closeParen with
        | some closed =>
          rw [closeGroup_of_skip? hc] at got
          obtain ⟨_, read⟩ := Rest.evaluate_of_got mode got
          rw [read]
          simp only [Rest.evaluate, Expression.evaluate, bind_assoc, pure_bind, eat, hc]
          rfl
        | none =>
          rw [closeGroup_of_skip?_eq_none hc] at got
          obtain ⟨_, read⟩ := Rest.evaluate_of_got mode got
          rw [read]
          simp only [Rest.evaluate, Expression.evaluate, bind_assoc, pure_bind, eat, hc]
          rfl
      · rename_i noGroup
        split
        · rename_i name named
          obtain ⟨past, found⟩ : ∃ past, Reference.read? s.isModule stream = some past :=
            Reference.read?_of_ident? named
          obtain ⟨_, read⟩ := Rest.evaluate_of_got mode (got_readOperand_name found)
          rw [read, reference]
          simp only [Expression.evaluate, bind_assoc, pure_bind, run_get, found,
            Reference.span_of_read? found]
        · rename_i noName
          obtain ⟨_, read⟩ := Rest.evaluate_of_got mode (got_readOperand_missing noPrefix noLiteral
            noGroup (Reference.read?_eq_none noName : Reference.read? s.isModule stream = none))
          rw [read]
          rfl
termination_by 3 * stream.size

theorem run_climbAbove (mode : Mode) (lowest : Nat) (stream : Stream) (setup : Setup)
    (s : Session) : (climbAbove mode lowest stream).run setup s =
      ((readAbove s.isModule lowest stream).evaluate mode).run setup s := by
  rw [climbAbove, run_congr_bind (run_climbOperand mode stream setup s)]
  have within := (readOperand s.isModule stream).le.2
  have behind := run_congr_bind (run_climbOperators mode lowest
    (readOperand s.isModule stream).value (readOperand s.isModule stream).stream setup s)
    fun r => pure (r.within (readOperand s.isModule stream).le)
  obtain ⟨_, read⟩ := Rest.evaluate_of_got mode
    (got_readAbove rfl : (readAbove s.isModule lowest stream).got = _)
  rw [read]
  simp only [Rest.evaluate, bind_assoc, pure_bind] at behind ⊢
  exact behind
termination_by 3 * stream.size + 2
decreasing_by all_goals omega

theorem run_climbOperators (mode : Mode) (lowest : Nat) (left : Expression) (stream : Stream)
    (setup : Setup) (s : Session) :
    (left.evaluate mode >>= fun v => climbOperators mode lowest v stream).run setup s =
      ((readOperators s.isModule lowest left stream).evaluate mode).run setup s := by
  by_cases tight : ∃ op ∈ operator? stream.kind, lowest ≤ op.precedence
  · obtain ⟨op, here, tight⟩ := tight
    have shorter := (advance_behind_of_operator? here).2
    have within := (readAbove s.isModule (op.precedence + 1) stream.advance).le.2
    have whole := run_congr_bind (run_climbOperators mode lowest
      (.binary op stream.span left (readAbove s.isModule (op.precedence + 1) stream.advance).value)
      (readAbove s.isModule (op.precedence + 1) stream.advance).stream setup s) fun r =>
        pure (r.after ((readAbove s.isModule (op.precedence + 1) stream.advance).le.behind
          (advance_behind_of_operator? here))).rest
    obtain ⟨_, read⟩ := Rest.evaluate_of_got mode (got_readOperators_next here tight rfl :
      (readOperators s.isModule lowest left stream).got = _)
    rw [read]
    simp only [climbOperators_next here tight, Rest.evaluate, Expression.evaluate, bind_assoc,
      pure_bind] at whole ⊢
    refine Eq.trans (run_bind_congr fun v t evaluated => ?_) whole
    rw [run_congr_bind (run_climbAbove mode (op.precedence + 1) stream.advance setup t),
      isModule_of_evaluate evaluated]
    simp only [Rest.evaluate, bind_assoc, pure_bind]
  · have loose : ∀ op ∈ operator? stream.kind, op.precedence < lowest := fun op here =>
      Nat.lt_of_not_le fun h => tight ⟨op, here, h⟩
    obtain ⟨_, read⟩ := Rest.evaluate_of_got mode
      (got_readOperators_stop loose : (readOperators s.isModule lowest left stream).got = _)
    rw [read]
    simp only [climbOperators_stop loose]
    rfl
termination_by 3 * stream.size + 1

end

/-- One pass over the words gives what reading the tree first and evaluating it then gives. -/
theorem run_climbAbove_eq_expression (mode : Mode) (stream : Stream) (setup : Setup) (s : Session) :
    (climbAbove mode 1 stream).run setup s = (expression mode stream).run setup s :=
  run_climbAbove mode 1 stream setup s

end Action

end FrontEnd
