import FrontEnd.Proofs.Expression.Machine
import FrontEnd.Proofs.Yields
import FrontEnd.Proofs.Session.Valid

/-!
What each mode of evaluation needs to succeed, and what it yields then. Constant mode changes only
the types of a session; what it yields does not depend on the code.
-/

namespace FrontEnd

/-- The value of an operand where `target` is expected. -/
def TypedValue.widened (types : TypeTable) (target : TypeId) (v : TypedValue) : TypedValue :=
  if types.widens target v.type then ⟨target, v.constant?.bind Constant.toReal?⟩ else v

/-- The code behind `c` after an operand has been turned into a real, where one is expected. -/
def Code.widen (c : Code) (types : TypeTable) (target source : TypeId) : Code :=
  if types.widens target source then c.emit (.convert source target) else c

/-- An operator accepts operands of these types; `right` has been turned into a real already, where
one is expected. -/
structure TypeTable.Accepts (types : TypeTable) (op : Operator) (left : TypeId)
    (right : TypedValue) : Prop where
  compatible : types.compatible left right.type = true
  operator : types.hasOperator op left = true
  nonzero : op.dividesByZero right = false

namespace Action

variable {setup : Setup} {s t : Session} {v w : TypedValue} {mode : Mode}

/-! ### Operands -/

theorem yields_literalType {value : Constant} {type : TypeId}
    (h : (literalType value).Yields setup s type t) :
    (∃ types, t = { s with types }) ∧
      ∀ code, (literalType value).Yields setup { s with code } type { t with code } := by
  cases value with
  | text value =>
    cases h
    exact ⟨⟨_, rfl⟩, fun _ => rfl⟩
  | _ =>
    cases h
    exact ⟨⟨s.types, rfl⟩, fun _ => rfl⟩

theorem yields_pushConstant_constant {value : Constant} {type : TypeId} :
    (pushConstant .constant value type).Yields setup s v t ↔ v = ⟨type, some value⟩ ∧ t = s :=
  yields_pure

theorem yields_pushConstant_runtime {value : Constant} {type : TypeId} :
    (pushConstant .runtime value type).Yields setup s v t ↔
      v = ⟨type, some value⟩ ∧ t = { s with code := s.code.emit (.push value) } := by
  constructor
  · rintro ⟨⟩
    exact ⟨rfl, rfl⟩
  · rintro ⟨rfl, rfl⟩
    rfl

/-- The identifier stands for a constant, in both modes. -/
structure Stands (i : Ident) (value : Constant) : Prop where
  evaluates : ∀ mode span, identValue mode i span = pushConstant mode value i.type
  hasKind : ∀ s, i.Carries s → value.HasKind (s.types.kind i.type)

/-- Whatever has a value and is no variable stands for a constant. -/
theorem stands_of_yields {i : Ident} {span : Span} (hm : mode = .constant ∨ i.kind ≠ .var)
    (h : (identValue mode i span).Yields setup s v t) : ∃ value, Stands i value := by
  unfold identValue at h
  split at h
  · rename_i _ value hk hp
    refine ⟨value, fun mode span => ?_, fun s carries => ?_⟩
    · unfold identValue
      rw [hk, hp]
    · rw [Ident.Carries, hk, hp] at carries
      exact carries
  · rename_i _ entry reserved? hk hp
    refine ⟨.int (Int64.ofNat entry), fun mode span => ?_, fun s carries => ?_⟩
    · unfold identValue
      rw [hk, hp]
    · rw [Ident.Carries, hk, hp] at carries
      obtain ⟨⟨signature, hs⟩, _⟩ := carries
      rw [hs]
      trivial
  · exact absurd h not_yields_fail
  · rename_i hk _
    rcases hm with hm | hm
    · cases hm
    · exact absurd hk hm
  · rename_i hk _
    rcases hm with hm | hm
    · cases hm
    · exact absurd hk hm
  · exact absurd h not_yields_fail
  · exact absurd h not_yields_failInternal

/-! ### Operators -/

theorem yields_checkUnary {op : UnaryOperator} {operand : TypeId} {span : Span} {x : Unit} :
    (checkUnary op operand span).Yields setup s x t ↔
      s.types.hasUnaryOperator op operand = true ∧ t = s := by
  unfold checkUnary
  rw [yields_get]
  cases s.types.hasUnaryOperator op operand with
  | false =>
    constructor
    · intro h
      exact absurd h not_yields_fail
    · rintro ⟨⟨⟩, _⟩
  | true =>
    constructor
    · rintro ⟨⟩
      exact ⟨rfl, rfl⟩
    · rintro ⟨_, rfl⟩
      rfl

theorem yields_foldUnary {op : UnaryOperator} {operand : TypedValue} {span : Span} :
    (foldUnary op operand span).Yields setup s v t ↔ ∃ a r, operand.constant? = some a ∧
      a.foldUnary op = .ok r ∧ v = ⟨operand.type, some r⟩ ∧ t = s := by
  unfold foldUnary
  constructor
  · intro h
    split at h
    · exact absurd h not_yields_failInternal
    · rename_i a ha
      split at h
      · rename_i r hr
        obtain ⟨rfl, rfl⟩ := yields_pure.1 h
        exact ⟨a, r, ha, hr, rfl, rfl⟩
      · exact absurd h not_yields_fail
  · rintro ⟨a, r, ha, hr, rfl, rfl⟩
    rw [ha]
    dsimp only
    rw [hr]
    rfl

theorem run_foldUnary {op : UnaryOperator} {operand : TypedValue} {span : Span} {a : Constant}
    {fault : FoldFault} (ha : operand.constant? = some a) (hr : a.foldUnary op = .error fault) :
    (foldUnary op operand span).run setup s =
      .error ((⟨.folding fault, span⟩ : Fault).inFile s.place.file) s := by
  unfold foldUnary
  rw [ha]
  dsimp only
  rw [hr]
  rfl

theorem yields_checkCompatible {target source : TypeId} {span : Span} {x : Unit} :
    (checkCompatible target source span).Yields setup s x t ↔
      s.types.compatible target source = true ∧ t = s := by
  unfold checkCompatible
  rw [yields_get]
  cases s.types.compatible target source with
  | false =>
    constructor
    · intro h
      exact absurd h not_yields_fail
    · rintro ⟨⟨⟩, _⟩
  | true =>
    constructor
    · rintro ⟨⟩
      exact ⟨rfl, rfl⟩
    · rintro ⟨_, rfl⟩
      rfl

/-- The types of the operands are right; only a division by a known zero is refused. -/
theorem run_checkBinary {op : Operator} {left : TypeId} {right : TypedValue} {span : Span}
    (hc : s.types.compatible left right.type = true) (ho : s.types.hasOperator op left = true) :
    (checkBinary op left right span).run setup s =
      if op.dividesByZero right then
        .error ((⟨.folding .divisionByZero, span⟩ : Fault).inFile s.place.file) s
      else .ok () s := by
  unfold checkBinary
  rw [(yields_checkCompatible (x := ()).2 ⟨hc, rfl⟩).run_bind]
  simp only [fail_bind]
  show Action.run (if (!s.types.hasOperator op left) = true then _ else _) setup s = _
  rw [ho]
  cases op.dividesByZero right <;> rfl

theorem yields_checkBinary {op : Operator} {left : TypeId} {right : TypedValue} {span : Span}
    {x : Unit} : (checkBinary op left right span).Yields setup s x t ↔
      s.types.Accepts op left right ∧ t = s := by
  constructor
  · intro h
    have run := h
    unfold checkBinary at run
    obtain ⟨_, u, checked, rest⟩ := yields_bind.1 run
    obtain ⟨hc, he⟩ := yields_checkCompatible.1 checked
    subst he
    simp only [fail_bind] at rest
    rw [yields_get] at rest
    split at rest
    · exact absurd rest not_yields_fail
    · rename_i ho
      have ho : u.types.hasOperator op left = true := by simpa using ho
      rw [Yields, run_checkBinary hc ho] at h
      split at h
      · cases h
      · rename_i hz
        cases h
        exact ⟨⟨hc, ho, by simpa using hz⟩, rfl⟩
  · rintro ⟨⟨hc, ho, hz⟩, rfl⟩
    rw [Yields, run_checkBinary hc ho, hz]
    rfl

theorem yields_foldBinary {op : Operator} {left right : TypedValue} {span : Span} :
    (foldBinary op left right span).Yields setup s v t ↔ ∃ a b r, left.constant? = some a ∧
      right.constant? = some b ∧ a.foldBinary op b = .ok r ∧
        v = ⟨op.resultType left.type, some r⟩ ∧ t = s := by
  unfold foldBinary
  constructor
  · intro h
    split at h
    · rename_i a b ha hb
      split at h
      · rename_i r hr
        obtain ⟨rfl, rfl⟩ := yields_pure.1 h
        exact ⟨a, b, r, ha, hb, hr, rfl, rfl⟩
      · exact absurd h not_yields_fail
    · exact absurd h not_yields_failInternal
  · rintro ⟨a, b, r, ha, hb, hr, rfl, rfl⟩
    rw [ha, hb]
    dsimp only
    rw [hr]
    rfl

theorem run_foldBinary {op : Operator} {left right : TypedValue} {span : Span} {a b : Constant}
    {fault : FoldFault} (ha : left.constant? = some a) (hb : right.constant? = some b)
    (hr : a.foldBinary op b = .error fault) :
    (foldBinary op left right span).run setup s =
      .error ((⟨.folding fault, span⟩ : Fault).inFile s.place.file) s := by
  unfold foldBinary
  rw [ha, hb]
  dsimp only
  rw [hr]
  rfl

theorem yields_widen {target : TypeId} :
    (widen mode target v).Yields setup s w t ↔ w = v.widened s.types target ∧
      t = { s with code := match mode with
        | .constant => s.code
        | .runtime => s.code.widen s.types target v.type } := by
  unfold widen TypedValue.widened Code.widen
  rw [yields_get]
  cases s.types.widens target v.type with
  | false =>
    cases mode <;> exact yields_pure
  | true =>
    cases mode with
    | constant => exact yields_pure
    | runtime =>
      constructor
      · rintro ⟨⟩
        exact ⟨rfl, rfl⟩
      · rintro ⟨rfl, rfl⟩
        rfl

theorem yields_widenOnStack {target source x : TypeId} :
    (widenOnStack target source).Yields setup s x t ↔
      x = (TypedValue.widened s.types target ⟨source, none⟩).type ∧
        t = { s with code := s.code.widen s.types target source } := by
  unfold widenOnStack TypedValue.widened Code.widen
  rw [yields_get]
  cases s.types.widens target source with
  | false => exact yields_pure
  | true =>
    constructor
    · rintro ⟨⟩
      exact ⟨rfl, rfl⟩
    · rintro ⟨rfl, rfl⟩
      rfl

theorem yields_applyUnary_constant {op : UnaryOperator} {operand : TypedValue} {span : Span} :
    (applyUnary .constant op operand span).Yields setup s v t ↔
      s.types.hasUnaryOperator op operand.type = true ∧
        (foldUnary op operand span).Yields setup s v t := by
  unfold applyUnary
  rw [yields_bind]
  constructor
  · rintro ⟨_, u, checked, h⟩
    obtain ⟨ho, rfl⟩ := yields_checkUnary.1 checked
    exact ⟨ho, h⟩
  · rintro ⟨ho, h⟩
    exact ⟨(), s, yields_checkUnary.2 ⟨ho, rfl⟩, h⟩

theorem yields_applyUnary_runtime {op : UnaryOperator} {operand : TypedValue} {span : Span} :
    (applyUnary .runtime op operand span).Yields setup s v t ↔
      s.types.hasUnaryOperator op operand.type = true ∧ v = ⟨operand.type, none⟩ ∧
        t = { s with code := s.code.emit (.unary op) } := by
  unfold applyUnary
  rw [yields_bind]
  constructor
  · rintro ⟨_, u, checked, h⟩
    obtain ⟨ho, rfl⟩ := yields_checkUnary.1 checked
    cases h
    exact ⟨ho, rfl, rfl⟩
  · rintro ⟨ho, rfl, rfl⟩
    exact ⟨(), s, yields_checkUnary.2 ⟨ho, rfl⟩, rfl⟩

theorem yields_applyBinary_constant {op : Operator} {left right : TypedValue} {span : Span} :
    (applyBinary .constant op left right span).Yields setup s v t ↔
      s.types.Accepts op left.type (right.widened s.types left.type) ∧
        (foldBinary op left (right.widened s.types left.type) span).Yields setup s v t := by
  unfold applyBinary
  rw [yields_bind]
  constructor
  · rintro ⟨w, u, widened, h⟩
    obtain ⟨rfl, rfl⟩ := yields_widen.1 widened
    obtain ⟨_, u, checked, h⟩ := yields_bind.1 h
    obtain ⟨accepted, rfl⟩ := yields_checkBinary.1 checked
    exact ⟨accepted, h⟩
  · rintro ⟨accepted, h⟩
    refine ⟨_, s, yields_widen.2 ⟨rfl, rfl⟩, yields_bind.2 ⟨(), s, ?_, h⟩⟩
    exact yields_checkBinary.2 ⟨accepted, rfl⟩

theorem yields_applyBinary_runtime {op : Operator} {left right : TypedValue} {span : Span} :
    (applyBinary .runtime op left right span).Yields setup s v t ↔
      s.types.Accepts op left.type (right.widened s.types left.type) ∧
        v = ⟨op.resultType left.type, none⟩ ∧
        t = { s with code := (s.code.widen s.types left.type right.type).emit (.binary op) } := by
  unfold applyBinary
  rw [yields_bind]
  constructor
  · rintro ⟨w, u, widened, h⟩
    obtain ⟨rfl, rfl⟩ := yields_widen.1 widened
    obtain ⟨_, u, checked, h⟩ := yields_bind.1 h
    obtain ⟨accepted, rfl⟩ := yields_checkBinary.1 checked
    cases h
    exact ⟨accepted, rfl, rfl⟩
  · rintro ⟨accepted, rfl, rfl⟩
    let u := { s with code := s.code.widen s.types left.type right.type }
    have checked : (checkBinary op left.type (right.widened s.types left.type) span).Yields setup u
        () u := yields_checkBinary.2 ⟨accepted, rfl⟩
    exact ⟨_, u, yields_widen.2 ⟨rfl, rfl⟩, yields_bind.2 ⟨(), u, checked, rfl⟩⟩

/-! ### Names -/

theorem yields_found {id? : Option IdentId} {cause : Cause} {span : Span} {x : IdentId × Ident} :
    (found id? cause span).Yields setup s x t ↔
      id? = some x.1 ∧ s.idents.get? x.1 = some x.2 ∧ t = s := by
  unfold found
  constructor
  · intro h
    split at h
    · exact absurd h not_yields_fail
    · rw [yields_get] at h
      split at h
      · rename_i i hi
        obtain ⟨rfl, rfl⟩ := yields_pure.1 h
        exact ⟨rfl, hi, rfl⟩
      · exact absurd h not_yields_fail
  · rintro ⟨rfl, hi, rfl⟩
    dsimp only
    rw [yields_get, hi]
    exact yields_pure.2 ⟨rfl, rfl⟩

theorem yields_ofExcept {α : Type} {e : Except Fault α} {x : α} :
    (ofExcept e).Yields setup s x t ↔ e = .ok x ∧ t = s := by
  constructor
  · intro h
    cases e with
    | ok y =>
      obtain ⟨rfl, rfl⟩ := yields_pure.1 h
      exact ⟨rfl, rfl⟩
    | error fault => exact absurd h not_yields_failAt
  · rintro ⟨rfl, rfl⟩
    exact yields_pure.2 ⟨rfl, rfl⟩

/-- What a name stands for has nothing to do with types and code. -/
theorem yields_resolve {r : Reference} {x : IdentId × Ident}
    (h : (resolve r).Yields setup s x t) : s.idents.get? x.1 = some x.2 ∧ t = s ∧
      ∀ types code, (resolve r).Yields setup { s with types, code } x { s with types, code } := by
  unfold resolve at h ⊢
  rw [yields_get] at h
  simp only [yields_get]
  cases r with
  | plain name span =>
    obtain ⟨hn, hi, rfl⟩ := yields_found.1 h
    exact ⟨hi, rfl, fun _ _ => yields_found.2 ⟨hn, hi, rfl⟩⟩
  | member file span member =>
    dsimp only at h ⊢
    split at h
    · exact absurd h not_yields_fail
    · simp only [fail_bind] at h ⊢
      split at h
      · exact absurd h not_yields_fail
      · rename_i imported
        simp only [if_neg imported]
        obtain ⟨y, _, read, rest⟩ := yields_bind.1 h
        obtain ⟨rfl, rfl⟩ := yields_ofExcept.1 read
        obtain ⟨z, _, named, last⟩ := yields_bind.1 rest
        obtain ⟨hn, hi, rfl⟩ := yields_found.1 named
        split at last
        · exact absurd last not_yields_fail
        · rename_i exported
          obtain ⟨rfl, rfl⟩ := yields_pure.1 last
          refine ⟨hi, rfl, fun types code => ?_⟩
          refine yields_bind.2 ⟨y, _, yields_ofExcept.2 ⟨rfl, rfl⟩, ?_⟩
          refine yields_bind.2 ⟨z, _, yields_found.2 ⟨hn, hi, rfl⟩, ?_⟩
          rw [if_neg exported]
          exact yields_pure.2 ⟨rfl, rfl⟩

end Action

end FrontEnd
