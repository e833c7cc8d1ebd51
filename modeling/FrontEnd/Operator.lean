/-!
The operators of expressions.
-/

namespace FrontEnd

inductive Operator
  | add
  | subtract
  | multiply
  | divide
  | modulus
  | and
  | or
  | equal
  | notEqual
  | less
  | lessOrEqual
  | greater
  | greaterOrEqual
deriving DecidableEq, Repr

namespace Operator

def spelling : Operator → String
  | add => "+"
  | subtract => "-"
  | multiply => "*"
  | divide => "/"
  | modulus => "%"
  | and => "&&"
  | or => "||"
  | equal => "=="
  | notEqual => "!="
  | less => "<"
  | lessOrEqual => "<="
  | greater => ">"
  | greaterOrEqual => ">="

/-- A higher number binds tighter. -/
def precedence : Operator → Nat
  | or => 1
  | and => 2
  | equal | notEqual | less | lessOrEqual | greater | greaterOrEqual => 3
  | add | subtract => 4
  | multiply | divide | modulus => 5

/-- Comparisons answer a truth value whatever their operands are. -/
def isComparison : Operator → Bool
  | equal | notEqual | less | lessOrEqual | greater | greaterOrEqual => true
  | _ => false

/-- What a comparison says about two operands that are ordered as given; nothing for an operator
that does not compare. -/
def holds? : Operator → Ordering → Option Bool
  | equal, o => some o.isEq
  | notEqual, o => some o.isNe
  | less, o => some o.isLT
  | lessOrEqual, o => some o.isLE
  | greater, o => some o.isGT
  | greaterOrEqual, o => some o.isGE
  | _, _ => none

end Operator

inductive UnaryOperator
  | negate
  | not
deriving DecidableEq, Repr

def UnaryOperator.spelling : UnaryOperator → String
  | negate => "-"
  | not => "!"

end FrontEnd
