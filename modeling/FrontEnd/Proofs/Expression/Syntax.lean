import FrontEnd.Expression.Syntax
import FrontEnd.Proofs.Reading

/-!
Every place of a tree where reading stopped holds a fault of the grammar.
-/

namespace FrontEnd.Expression

def IsProper : Expression → Prop
  | literal _ => True
  | name reference => reference.IsProper
  | group inner unclosed? =>
    inner.IsProper ∧ ∀ fault ∈ unclosed?, fault.cause.category = .grammar
  | unary _ _ operand => operand.IsProper
  | binary _ _ left right => left.IsProper ∧ right.IsProper
  | missing fault => fault.cause.category = .grammar

theorem isProper_closeGroup {s : Stream} :
    ∀ fault ∈ (closeGroup s).value, fault.cause.category = .grammar := by
  unfold closeGroup
  split
  · intro fault hf
    cases hf
  · rintro fault ⟨⟩
    rfl

mutual

theorem isProper_readOperand (isModule : String → Bool) (s : Stream) :
    (readOperand isModule s).value.IsProper := by
  rw [readOperand]
  split
  · rename_i hu
    have hlt := (advance_behind_of_unaryOperator? hu).2
    exact isProper_readOperand isModule s.advance
  · split
    · trivial
    · split
      · rename_i s₁ h₁ _
        have hlt := h₁.2
        exact ⟨isProper_readAbove isModule 1 s₁, isProper_closeGroup⟩
      · split
        · rename_i hr
          exact Reference.isProper_of_read hr
        · rfl
termination_by 3 * s.size

theorem isProper_readAbove (isModule : String → Bool) (lowest : Nat) (s : Stream) :
    (readAbove isModule lowest s).value.IsProper := by
  rw [readAbove]
  have hl := isProper_readOperand isModule s
  generalize readOperand isModule s = operand at hl ⊢
  obtain ⟨left, s₁, h₁⟩ := operand
  have hle := h₁.2
  exact isProper_readOperators isModule lowest left s₁ hl
termination_by 3 * s.size + 2
decreasing_by all_goals omega

theorem isProper_readOperators (isModule : String → Bool) (lowest : Nat) (left : Expression)
    (s : Stream) (h : left.IsProper) : (readOperators isModule lowest left s).value.IsProper := by
  rw [readOperators]
  split
  · rename_i op ho
    split
    · exact h
    · have hlt := (advance_behind_of_operator? ho).2
      have hr := isProper_readAbove isModule (op.precedence + 1) s.advance
      generalize readAbove isModule (op.precedence + 1) s.advance = behind at hr ⊢
      obtain ⟨right, s₁, h₁⟩ := behind
      have hle := h₁.2
      exact isProper_readOperators isModule lowest (.binary op s.span left right) s₁ ⟨h, hr⟩
  · exact h
termination_by 3 * s.size + 1

end

theorem isProper_read (isModule : String → Bool) (s : Stream) : (read isModule s).value.IsProper :=
  isProper_readAbove isModule 1 s

end FrontEnd.Expression
