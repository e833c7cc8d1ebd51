import FrontEnd.Proofs.Arithmetic
import FrontEnd.Proofs.Expression.Folding
import FrontEnd.Proofs.Expression.Writes
import FrontEnd.Proofs.History

/-!
Divisions by a known zero. Where the right operand of a division or a remainder is a zero that is
written down or has a name, constant mode says so. Runtime mode does so too where integers are
divided; a real that is divided by zero it lets pass, since it looks at the divisor only after an
integer has been turned into a real.
-/

namespace FrontEnd

/-- The integer zero, or a real that equals zero. -/
def Constant.isZero : Constant → Bool
  | int value => value = 0
  | real value => value == 0
  | _ => false

open FrontEnd.Action

namespace Expression

/-- A number that is written down, or the name of a constant, maybe between parentheses. -/
inductive Denotes (setup : Setup) (s : Session) : Expression → Constant → TypeId → Prop
  | int (value : Int64) : Denotes setup s (.literal (.int value)) (.int value) .int
  | real (value : Float) : Denotes setup s (.literal (.real value)) (.real value) .real
  | name {r : Reference} {x : IdentId × Ident} {value : Constant}
    (resolved : (Action.resolve r).Yields setup s x s) (kind : x.2.kind = .constant)
    (payload : x.2.payload = .constant value) : Denotes setup s (.name r) value x.2.type
  | group {inner : Expression} {value : Constant} {type : TypeId}
    (h : Denotes setup s inner value type) : Denotes setup s (.group inner none) value type

variable {setup : Setup} {s t u : Session} {mode : Mode} {v w : TypedValue}
  {tree left right : Expression} {value : Constant} {type : TypeId} {op : Operator} {span : Span}

/-! ### Operands -/

/-- The evaluation of an expression changes nothing but types and code. -/
theorem retypes_of_yields (h : (tree.evaluate mode).Yields setup s v t) :
    ∃ types code, t = { s with types, code } := by
  have written := (writes_evaluate tree : (tree.evaluate mode).Writes setup _ _ s).related
    (T := fun s t => ∃ types code, t = { s with types, code }) (fun t => ⟨_, _, rfl⟩)
    (by rintro _ _ _ ⟨_, _, rfl⟩ ⟨_, _, rfl⟩; exact ⟨_, _, rfl⟩)
    (by rintro _ _ (_ | _) <;> exact ⟨_, _, rfl⟩)
  rw [show (tree.evaluate mode).run setup s = .ok v t from h] at written
  exact written.1

theorem grounded_emit (g : s.Grounded ∅) (i : Instruction) :
    Session.Grounded ∅ { s with code := s.code.emit i } := by
  have grows : s.Grows { s with code := s.code.emit i } :=
    Session.grows_code (Session.size_emit_le s.code i)
  exact ⟨g.builtins, fun id i hi => (g.idents id i hi).transport grows fun _ hr => hr.grows grows⟩

/-- The builtin types and the identifiers stay in place. -/
theorem grounded_of_yields (g : s.Grounded ∅) (h : (tree.evaluate mode).Yields setup s v t) :
    t.Grounded ∅ := by
  have written := (writes_evaluate tree : (tree.evaluate mode).Writes setup _ _ s).related
    (T := fun s t => s.Grounded ∅ → t.Grounded ∅) (fun _ => id)
    (fun first second g => second (first g))
    (by
      rintro _ _ (capacity | ⟨_, i, _⟩) g
      · exact grounded_addText g capacity
      · exact grounded_emit g i)
  rw [show (tree.evaluate mode).run setup s = .ok v t from h] at written
  exact written.1 g

namespace Denotes

/-- A known operand has its value in both modes. -/
theorem yields (h : right.Denotes setup s value type) (mode : Mode) (types : TypeTable)
    (code : Code) : (right.evaluate mode).Yields setup { s with types, code } ⟨type, some value⟩
      { s with types, code := match mode with
        | .constant => code
        | .runtime => code.emit (.push value) } := by
  have pushes (value : Constant) (type : TypeId) :
      (pushConstant mode value type).Yields setup { s with types, code } ⟨type, some value⟩
        { s with types, code := match mode with
          | .constant => code
          | .runtime => code.emit (.push value) } := by
    cases mode with
    | constant => exact yields_pushConstant_constant.2 ⟨rfl, rfl⟩
    | runtime => exact yields_pushConstant_runtime.2 ⟨rfl, rfl⟩
  induction h with
  | int value => exact yields_bind.2 ⟨_, _, yields_pure.2 ⟨rfl, rfl⟩, pushes _ _⟩
  | real value => exact yields_bind.2 ⟨_, _, yields_pure.2 ⟨rfl, rfl⟩, pushes _ _⟩
  | @name r x value resolved kind payload =>
    obtain ⟨_, _, others⟩ := yields_resolve resolved
    rw [Expression.evaluate]
    refine yields_bind.2 ⟨x, _, others types code, ?_⟩
    have known : identValue mode x.2 r.span = pushConstant mode value x.2.type := by
      unfold identValue
      rw [kind, payload]
    dsimp only
    rw [known]
    exact pushes _ _
  | group h ih =>
    rw [Expression.evaluate]
    exact yields_bind.2 ⟨_, _, ih, yields_pure.2 ⟨rfl, rfl⟩⟩

/-- A known operand is of the kind of its type, wherever an expression has been evaluated. -/
theorem hasKind (h : right.Denotes setup s value type) (g : t.Grounded ∅)
    (same : ∃ types code, t = { s with types, code }) : value.HasKind (t.types.kind type) := by
  obtain ⟨types, code, rfl⟩ := same
  exact (evaluates_of_yields g (h.yields .constant types code)).fits.constant value rfl

end Denotes

/-! ### Divisors -/

variable {types : TypeTable} {dividend : TypeId}

theorem isReal_eq_false_of_isInteger (h : types.isInteger type = true) :
    types.isReal type = false := by
  obtain ⟨b, hb, integer⟩ := TypeTable.isInteger_iff.1 h
  unfold TypeTable.isReal
  rw [hb]
  cases b <;> first | rfl | cases integer

/-- What is divided is a number; a remainder is taken of integers only. -/
theorem numeric_of_divides (division : op.divides = true)
    (operator : types.hasOperator op dividend = true) :
    types.isInteger dividend = true ∨ types.isReal dividend = true ∧ op = .divide := by
  cases op with
  | divide => exact (Bool.or_eq_true_iff.1 operator).imp_right fun real => ⟨real, rfl⟩
  | modulus => exact .inl operator
  | _ => cases division

/-- The divisor of an integer is the integer zero. -/
theorem divisor_of_integer (zero : value.isZero = true) (kind : value.HasKind (types.kind type))
    (integer : types.isInteger dividend = true) (compatible : types.compatible dividend
      (TypedValue.widened types dividend ⟨type, some value⟩).type = true) :
    TypedValue.widened types dividend ⟨type, some value⟩ = ⟨type, some (.int 0)⟩ := by
  have kept : TypedValue.widened types dividend ⟨type, some value⟩ = ⟨type, some value⟩ := by
    unfold TypedValue.widened TypeTable.widens
    rw [isReal_eq_false_of_isInteger integer]
    rfl
  rw [kept] at compatible ⊢
  obtain ⟨n, rfl⟩ := (TypeTable.hasKind_integer integer).1
    (TypeTable.hasKind_of_compatible compatible kind)
  obtain rfl : n = 0 := of_decide_eq_true zero
  rfl

/-- The divisor of a real is a real that equals zero. -/
theorem divisor_of_real (zero : value.isZero = true) (kind : value.HasKind (types.kind type))
    (real : types.isReal dividend = true) (compatible : types.compatible dividend
      (TypedValue.widened types dividend ⟨type, some value⟩).type = true) :
    ∃ y : Float, (TypedValue.widened types dividend ⟨type, some value⟩).constant? = some (.real y) ∧
      (y == 0) = true := by
  unfold TypedValue.widened at compatible ⊢
  by_cases widens : types.widens dividend type = true
  · rw [if_pos widens]
    obtain ⟨n, rfl⟩ := (TypeTable.hasKind_integer (Bool.and_eq_true_iff.1 widens).2).1 kind
    obtain rfl : n = 0 := of_decide_eq_true zero
    exact ⟨_, rfl, rfl⟩
  · rw [if_neg widens] at compatible ⊢
    obtain ⟨y, rfl⟩ := (TypeTable.hasKind_real real).1
      (TypeTable.hasKind_of_compatible compatible kind)
    exact ⟨y, rfl, zero⟩

theorem dividesByZero_int (division : op.divides = true) (type : TypeId) :
    op.dividesByZero ⟨type, some (.int 0)⟩ = true := by
  cases op <;> first | rfl | cases division

theorem dividesByZero_real {y : Float} (h : w.constant? = some (.real y)) :
    op.dividesByZero w = false := by
  unfold Operator.dividesByZero
  rw [h]
  exact Bool.and_false _

/-! ### Divisions -/

section Divisions

variable (division : op.divides = true) (denotes : right.Denotes setup s value type)
  (zero : value.isZero = true) (g : s.Grounded ∅)
  (yields : (left.evaluate mode).Yields setup s v t)
  (compatible : t.types.compatible v.type
    (TypedValue.widened t.types v.type ⟨type, some value⟩).type = true)
  (operator : t.types.hasOperator op v.type = true)

include division denotes zero g yields compatible operator

/-- An integer cannot be divided by a known zero, in either mode. -/
theorem run_integer_by_zero (integer : t.types.isInteger v.type = true) :
    ∃ u, (evaluate mode (.binary op span left right)).run setup s =
      .error ((⟨.folding .divisionByZero, span⟩ : Fault).inFile s.place.file) u := by
  have kind := denotes.hasKind (grounded_of_yields g yields) (retypes_of_yields yields)
  obtain ⟨types, code, rfl⟩ := retypes_of_yields yields
  have divisor := denotes.yields mode types code
  have same := divisor_of_integer zero kind integer compatible
  rw [same] at compatible
  have checked (c : Code) : (checkBinary op v.type ⟨type, some (.int 0)⟩ span).run setup
      { s with types, code := c } =
        .error ((⟨.folding .divisionByZero, span⟩ : Fault).inFile s.place.file)
          { s with types, code := c } := by
    rw [run_checkBinary (s := { s with types, code := c }) compatible operator,
      if_pos (dividesByZero_int division type)]
  rw [Expression.evaluate, yields.run_bind, divisor.run_bind, applyBinary,
    (yields_widen.2 ⟨rfl, rfl⟩).run_bind]
  dsimp only
  rw [same]
  exact ⟨_, run_bind_error (checked _)⟩

omit division

/-- A real is divided by a known zero in runtime mode. -/
theorem run_real_by_zero_runtime (runtime : mode = .runtime)
    (real : t.types.isReal v.type = true) :
    (evaluate .runtime (.binary op span left right)).run setup s =
      .ok ⟨op.resultType v.type, none⟩ { t with
        code := ((t.code.emit (.push value)).widen t.types v.type type).emit (.binary op) } := by
  subst runtime
  have kind := denotes.hasKind (grounded_of_yields g yields) (retypes_of_yields yields)
  obtain ⟨types, code, rfl⟩ := retypes_of_yields yields
  have divisor := denotes.yields .runtime types code
  obtain ⟨y, known, -⟩ := divisor_of_real zero kind real compatible
  rw [Expression.evaluate, yields.run_bind, divisor.run_bind]
  exact yields_applyBinary_runtime.2 ⟨⟨compatible, operator, dividesByZero_real known⟩, rfl, rfl⟩

/-- In constant mode a real cannot be divided by a known zero. -/
theorem run_real_by_zero_constant (constant : mode = .constant)
    (real : t.types.isReal v.type = true) (quotient : op = .divide) :
    (evaluate .constant (.binary op span left right)).run setup s =
      .error ((⟨.folding .divisionByZero, span⟩ : Fault).inFile s.place.file) t := by
  subst constant quotient
  have e := evaluates_of_yields g yields
  have kind := denotes.hasKind e.grounded (retypes_of_yields yields)
  obtain ⟨k, hk⟩ := e.fits.known rfl
  obtain ⟨x, rfl⟩ := (TypeTable.hasKind_real real).1 (e.fits.constant k hk)
  obtain ⟨types, code, rfl⟩ := retypes_of_yields yields
  have divisor := denotes.yields .constant types code
  obtain ⟨y, known, equal⟩ := divisor_of_real zero kind real compatible
  have folds : (Constant.real x).foldBinary .divide (.real y) = .error .divisionByZero :=
    if_pos equal
  have checked : (checkBinary .divide v.type _ span).Yields setup { s with types, code } ()
      { s with types, code } :=
    yields_checkBinary.2 ⟨⟨compatible, operator, dividesByZero_real known⟩, rfl⟩
  rw [Expression.evaluate, yields.run_bind, divisor.run_bind, applyBinary,
    (yields_widen.2 ⟨rfl, rfl⟩).run_bind, checked.run_bind]
  exact run_foldBinary hk known folds

end Divisions

end Expression

/-- Where the operands of a division or a remainder have the operator and the divisor is a zero that
is written down or has a name, constant mode refuses it, and so does runtime mode if integers are
divided. A real is divided by zero in runtime mode, whatever way the zero is written. -/
theorem history_zeroDivisors (setup : Setup) (root : String) :
    ∀ s ∈ history setup root, ∀ (op : Operator) (span : Span) (left right : Expression)
      (value : Constant) (type : TypeId), op.divides = true → value.isZero = true →
      right.Denotes setup s value type →
      ∀ mode v t, (left.evaluate mode).Yields setup s v t →
        t.types.compatible v.type
          (TypedValue.widened t.types v.type ⟨type, some value⟩).type = true →
        t.types.hasOperator op v.type = true →
        (mode = .constant ∨ t.types.isReal v.type = false →
          ∃ u, (Expression.evaluate mode (.binary op span left right)).run setup s =
            .error ((⟨.folding .divisionByZero, span⟩ : Fault).inFile s.place.file) u) ∧
        (mode = .runtime → t.types.isReal v.type = true →
          ∃ code, (Expression.evaluate mode (.binary op span left right)).run setup s =
            .ok ⟨op.resultType v.type, none⟩ { t with code }) := by
  intro s hs op span left right value type division zero denotes mode v t yields compatible operator
  have g := (valid_of_mem_history hs).grounded
  constructor
  · intro refused
    rcases Expression.numeric_of_divides division operator with integer | ⟨real, quotient⟩
    · exact Expression.run_integer_by_zero division denotes zero g yields compatible operator integer
    · rcases refused with rfl | integer
      · exact ⟨t, Expression.run_real_by_zero_constant denotes zero g yields compatible operator rfl
          real quotient⟩
      · rw [real] at integer
        cases integer
  · rintro rfl real
    exact ⟨_, Expression.run_real_by_zero_runtime denotes zero g yields compatible operator rfl real⟩

/-- A real variable that is divided by the integer zero. -/
def quotientProgram : Setup where
  settings := .standard
  sources := ⟨fun _ => .ok "fn main() \x7b var a: real; a = a / 0 \x7d\n"⟩
  hosts := ⟨[]⟩

/-- In constant mode a real is not divided by the integer zero. -/
theorem quotientProgram_refuses :
    ∃ u, (Expression.evaluate .constant
      (.binary .divide .origin (.literal (.real 1.5)) (.literal (.int 0)))).run quotientProgram
        (.initial quotientProgram.settings) =
      .error ((⟨.folding .divisionByZero, .origin⟩ : Fault).inFile predeclaredPath) u :=
  (history_zeroDivisors quotientProgram "main.um" _ List.mem_cons_self .divide .origin
    (.literal (.real 1.5)) (.literal (.int 0)) (.int 0) .int rfl rfl (.int 0) .constant
    ⟨.real, some (.real 1.5)⟩ (.initial quotientProgram.settings) rfl (by decide) (by decide)).1
    (.inl rfl)

/-- The division by zero is compiled. -/
theorem quotientProgram_divides :
    (compile quotientProgram "main.um").toOption.any (fun z =>
      z.code.instructions.any fun | .binary .divide => true | _ => false) = true := by
  decide +kernel

end FrontEnd
