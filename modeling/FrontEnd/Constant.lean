import FrontEnd.Number.Word
import FrontEnd.Number.Real
import FrontEnd.Text.Quoted
import FrontEnd.Operator

/-!
Constants and their folding. A constant expression either folds to a constant or fails with one of
three faults; the types of the operands have been checked before.
-/

namespace FrontEnd

inductive Constant
  | int (value : Int64)
  | real (value : Float)
  | bool (value : Bool)
  | char (value : Char)
  | text (value : String)
  | null
deriving Inhabited, Repr

inductive FoldFault
  | divisionByZero
  | overflow
  | unsupported
deriving DecidableEq, Repr

def FoldFault.message : FoldFault → String
  | divisionByZero => "Division by zero"
  | overflow => "Constant overflow"
  | unsupported => "Operator is not applicable to these constants"

namespace Constant

/-- Equality of values: as numbers for reals, so that no number differs from itself and the two
zeros are equal. -/
def same : Constant → Constant → Bool
  | int a, int b => a == b
  | real a, real b => a == b
  | bool a, bool b => a == b
  | char a, char b => a == b
  | text a, text b => a == b
  | null, null => true
  | _, _ => false

instance : BEq Constant := ⟨same⟩

/-- The number of an integer or the code point of a character. -/
def asInt? : Constant → Option Int64
  | int value => some value
  | char value => some (Int64.ofNat value.toNat)
  | _ => none

/-- The real that a number stands for where a real is expected. -/
def toReal? : Constant → Option Constant
  | int value => some (real (Float.ofInt value.toInt))
  | real value => some (real value)
  | _ => none

def toText : Constant → String
  | int value => toString value.toInt
  | real value => Number.realText value
  | bool value => if value then "true" else "false"
  | char value => Text.quoteChar value
  | text value => Text.quoteString value
  | null => "null"

/-- The order of two reals; none if one of them is no number. -/
def realOrder? (a b : Float) : Option Ordering :=
  if a < b then some .lt
  else if a == b then some .eq
  else if b < a then some .gt
  else none

def intOrder (a b : Int64) : Ordering :=
  compare a.toInt b.toInt

def charOrder (a b : Char) : Ordering :=
  compare a.toNat b.toNat

/-- The order of texts by code points, which is also that of their bytes. -/
def textOrder : List Char → List Char → Ordering
  | [], [] => .eq
  | [], _ :: _ => .lt
  | _ :: _, [] => .gt
  | a :: as, b :: bs => (charOrder a b).then (textOrder as bs)

def ofWord? (word? : Option Int64) : Except FoldFault Constant :=
  match word? with
  | some value => .ok (int value)
  | none => .error .overflow

def ofComparison? (op : Operator) (order : Ordering) : Except FoldFault Constant :=
  match op.holds? order with
  | some value => .ok (bool value)
  | none => .error .unsupported

def foldUnary (op : UnaryOperator) : Constant → Except FoldFault Constant
  | int value => if op = .negate then ofWord? (Word.neg? value) else .error .unsupported
  | real value => if op = .negate then .ok (real (-value)) else .error .unsupported
  | bool value => if op = .not then .ok (bool !value) else .error .unsupported
  | _ => .error .unsupported

def foldInt (op : Operator) (a b : Int64) : Except FoldFault Constant :=
  match op with
  | .add => ofWord? (Word.add? a b)
  | .subtract => ofWord? (Word.sub? a b)
  | .multiply => ofWord? (Word.mul? a b)
  | .divide => if b = 0 then .error .divisionByZero else ofWord? (Word.quot? a b)
  | .modulus => if b = 0 then .error .divisionByZero else ofWord? (Word.rem? a b)
  | _ => ofComparison? op (intOrder a b)

def foldReal (op : Operator) (a b : Float) : Except FoldFault Constant :=
  match op with
  | .add => .ok (real (a + b))
  | .subtract => .ok (real (a - b))
  | .multiply => .ok (real (a * b))
  | .divide => if b == 0 then .error .divisionByZero else .ok (real (a / b))
  | .modulus => .error .unsupported
  | _ =>
    match realOrder? a b with
    | some order => ofComparison? op order
    | none => .error .unsupported

def foldBool (op : Operator) (a b : Bool) : Except FoldFault Constant :=
  match op with
  | .and => .ok (bool (a && b))
  | .or => .ok (bool (a || b))
  | .equal => .ok (bool (a == b))
  | .notEqual => .ok (bool (a != b))
  | _ => .error .unsupported

def foldText (op : Operator) (a b : String) : Except FoldFault Constant :=
  match op with
  | .add => .ok (text (a ++ b))
  | _ => ofComparison? op (textOrder a.toList b.toList)

def foldNull (op : Operator) : Except FoldFault Constant :=
  match op with
  | .equal => .ok (bool true)
  | .notEqual => .ok (bool false)
  | _ => .error .unsupported

/-- Two numbers of different kinds fold as reals. -/
def foldBinary (op : Operator) : Constant → Constant → Except FoldFault Constant
  | int a, int b => foldInt op a b
  | real a, real b => foldReal op a b
  | int a, real b => foldReal op (Float.ofInt a.toInt) b
  | real a, int b => foldReal op a (Float.ofInt b.toInt)
  | bool a, bool b => foldBool op a b
  | char a, char b => ofComparison? op (charOrder a b)
  | text a, text b => foldText op a b
  | null, null => foldNull op
  | _, _ => .error .unsupported

end Constant

end FrontEnd
