import FrontEnd.Expression.Reference

/-!
Expressions as trees. A tree is read from left to right without knowing what its names stand for.
The place where reading stops at a word that does not belong there is kept in the tree, so that a
fault of an operand further left is still the first one.
-/

namespace FrontEnd

inductive Expression
  | literal (value : Constant)
  | name (reference : Reference)
  /-- An expression between parentheses, and what stands in the place of the closing one. -/
  | group (inner : Expression) (unclosed? : Option Fault)
  | unary (op : UnaryOperator) (span : Span) (operand : Expression)
  | binary (op : Operator) (span : Span) (left right : Expression)
  | missing (fault : Fault)

namespace Expression

/-- The constant that a literal stands for. -/
def literal? : TokenKind → Option Constant
  | .int value => some (.int value)
  | .real value => some (.real value)
  | .char value => some (.char value)
  | .text value => some (.text value)
  | _ => none

def unaryOperator? : TokenKind → Option UnaryOperator
  | .symbol (.operator .subtract) => some .negate
  | .symbol .not => some .not
  | _ => none

def operator? : TokenKind → Option Operator
  | .symbol (.operator op) => some op
  | _ => none

theorem advance_behind_of_literal? {s : Stream} {v : Constant} (h : literal? s.kind = some v) :
    s.advance.Behind s :=
  Stream.advance_behind (by cases hk : s.kind <;> simp_all [literal?, TokenKind.symbol?])

theorem advance_behind_of_unaryOperator? {s : Stream} {op : UnaryOperator}
    (h : unaryOperator? s.kind = some op) : s.advance.Behind s :=
  Stream.advance_behind (by
    intro hs
    unfold unaryOperator? at h
    split at h <;> simp_all [TokenKind.symbol?])

theorem advance_behind_of_operator? {s : Stream} {op : Operator}
    (h : operator? s.kind = some op) : s.advance.Behind s :=
  Stream.advance_behind (by
    intro hs
    unfold operator? at h
    split at h <;> simp_all [TokenKind.symbol?])

/-- What was read as the closing parenthesis of a group. -/
def closeGroup (s : Stream) : Rest s (Option Fault) :=
  match s.skip? .closeParen with
  | some ⟨(), s', h⟩ => (⟨none, s', h⟩ : Past s _).rest
  | none => .here s (some ⟨.expected Symbol.closeParen.spelling s.kind.spelling, s.span⟩)

mutual

/-- Reads an operand: prefix operators and what they stand in front of. -/
def readOperand (isModule : String → Bool) (s : Stream) : Rest s Expression :=
  match hu : unaryOperator? s.kind with
  | some op =>
    have h := advance_behind_of_unaryOperator? hu
    let ⟨operand, s₁, h₁⟩ := ((readOperand isModule s.advance).after h).rest
    ⟨.unary op s.span operand, s₁, h₁⟩
  | none =>
    match hl : literal? s.kind with
    | some value => (⟨.literal value, s.advance, advance_behind_of_literal? hl⟩ : Past s _).rest
    | none =>
      match s.skip? .openParen with
      | some ⟨(), s₁, h₁⟩ =>
        let ⟨inner, s₂, h₂⟩ := (readAbove isModule 1 s₁).after h₁
        let ⟨unclosed?, s₃, h₃⟩ := ((closeGroup s₂).after h₂).rest
        ⟨.group inner unclosed?, s₃, h₃⟩
      | none =>
        match Reference.read? isModule s with
        | some ⟨r, s₁, h₁⟩ => (⟨.name r, s₁, h₁⟩ : Past s _).rest
        | none => .here s (.missing ⟨.expressionExpected s.kind.spelling, s.span⟩)
termination_by 3 * s.size

/-- Reads operands joined by operators that bind at least as tight as `lowest`. -/
def readAbove (isModule : String → Bool) (lowest : Nat) (s : Stream) : Rest s Expression :=
  let ⟨left, s₁, h₁⟩ := readOperand isModule s
  (readOperators isModule lowest left s₁).within h₁
termination_by 3 * s.size + 2
decreasing_by all_goals omega

/-- Goes on behind the operand `left`. Operators of equal precedence group to the left. -/
def readOperators (isModule : String → Bool) (lowest : Nat) (left : Expression) (s : Stream) :
    Rest s Expression :=
  match ho : operator? s.kind with
  | some op =>
    if op.precedence < lowest then .here s left
    else
      have h := advance_behind_of_operator? ho
      let ⟨right, s₁, h₁⟩ := (readAbove isModule (op.precedence + 1) s.advance).after h
      ((readOperators isModule lowest (.binary op s.span left right) s₁).after h₁).rest
  | none => .here s left
termination_by 3 * s.size + 1

end

/-- Reads the longest expression that starts here. -/
def read (isModule : String → Bool) (s : Stream) : Rest s Expression :=
  readAbove isModule 1 s

end Expression

end FrontEnd
