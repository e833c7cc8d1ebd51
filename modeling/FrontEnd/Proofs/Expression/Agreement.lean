import FrontEnd.Proofs.Expression.Modes

/-!
The two modes of evaluation agree. Where a tree folds, the code that is emitted for it computes the
same constant; where code is emitted for a tree without variables, the tree folds unless a fold
itself fails.
-/

namespace FrontEnd

/-- What runtime mode knows of a value: its type, and perhaps the constant. -/
structure TypedValue.Shadows (w : TypedValue) (type : TypeId) (k : Constant) : Prop where
  type : w.type = type
  constant : ∀ c ∈ w.constant?, c = k

namespace Action

variable {setup : Setup} {s t : Session} {v w : TypedValue} {c d e : Code} {a b : Constant}

theorem shadows_widened {types : TypeTable} {target source : TypeId} {r : Constant}
    (h : w.Shadows source a)
    (hr : (TypedValue.widened types target ⟨source, some a⟩).constant? = some r) :
    (w.widened types target).Shadows (TypedValue.widened types target ⟨source, some a⟩).type r := by
  obtain ⟨rfl, hc⟩ := h
  unfold TypedValue.widened at hr ⊢
  dsimp only at hr ⊢
  split
  · rename_i hw
    rw [if_pos hw] at hr
    refine ⟨rfl, fun k hk => ?_⟩
    obtain ⟨k', hk', he⟩ := Option.bind_eq_some_iff.1 hk
    rw [hc k' hk'] at he
    exact Option.some_inj.1 (he.symm.trans hr)
  · rename_i hw
    rw [if_neg hw] at hr
    cases hr
    exact ⟨rfl, hc⟩

/-- An operand is turned into a real in the code as it is in its value. -/
theorem computes_widened {types : TypeTable} {target source : TypeId} {r : Constant}
    (h : c.Computes d a)
    (hr : (TypedValue.widened types target ⟨source, some a⟩).constant? = some r) :
    c.Computes (d.widen types target source) r := by
  unfold TypedValue.widened at hr
  unfold Code.widen
  dsimp only at hr
  split
  · rename_i hw
    rw [if_pos hw] at hr
    exact h.convert hr source target
  · rename_i hw
    rw [if_neg hw] at hr
    cases hr
    exact h

theorem dividesByZero_shadow {op : Operator} {type : TypeId} (h : w.Shadows type a)
    (hz : op.dividesByZero ⟨type, some a⟩ = false) : op.dividesByZero w = false := by
  obtain ⟨wtype, constant?⟩ := w
  cases constant? with
  | none => simp [Operator.dividesByZero]
  | some k =>
    have hk : k = a := h.constant k rfl
    subst hk
    exact hz

/-- What runtime mode makes of a tree that folds to `k`: code that computes `k`. -/
structure Mirrors (setup : Setup) (tree : Expression) (s t : Session) (type : TypeId)
    (k : Constant) : Prop where
  retypes : ∃ types, t = { s with types }
  emits : ∀ c : Code, ∃ w d, (tree.evaluate .runtime).Yields setup { s with code := c } w
    { t with code := d } ∧ w.Shadows type k ∧ c.Computes d k

variable {tree left right : Expression} {type : TypeId} {k : Constant}

/-- An operand that stands for a constant. -/
theorem emits_push (setup : Setup) (s : Session) (type : TypeId) (k : Constant) (c : Code) :
    ∃ w d, (pushConstant .runtime k type).Yields setup { s with code := c } w
      { s with code := d } ∧ w.Shadows type k ∧ c.Computes d k := by
  refine ⟨⟨type, some k⟩, c.emit (.push k), yields_pushConstant_runtime.2 ⟨rfl, rfl⟩, ⟨rfl, ?_⟩,
    Code.computes_push c k⟩
  rintro _ ⟨⟩
  rfl

theorem mirrors_literal (h : (literalType k).Yields setup s type t) :
    Mirrors setup (.literal k) s t type k := by
  obtain ⟨retypes, blind⟩ := yields_literalType h
  refine ⟨retypes, fun c => ?_⟩
  obtain ⟨w, d, pushed, rest⟩ := emits_push setup t type k c
  refine ⟨w, d, ?_, rest⟩
  rw [Expression.evaluate]
  exact yields_bind.2 ⟨type, _, blind c, pushed⟩

theorem mirrors_name {r : Reference} {x : IdentId × Ident} (h : (resolve r).Yields setup s x s)
    (hk : Stands x.2 k) : Mirrors setup (.name r) s s x.2.type k := by
  refine ⟨⟨s.types, rfl⟩, fun c => ?_⟩
  obtain ⟨w, d, pushed, rest⟩ := emits_push setup s x.2.type k c
  refine ⟨w, d, ?_, rest⟩
  rw [Expression.evaluate]
  refine yields_bind.2 ⟨x, _, (yields_resolve h).2.2 s.types c, ?_⟩
  dsimp only
  rw [hk.evaluates]
  exact pushed

theorem mirrors_group (h : Mirrors setup tree s t type k) :
    Mirrors setup (.group tree none) s t type k := by
  refine ⟨h.retypes, fun c => ?_⟩
  obtain ⟨w, d, yields, rest⟩ := h.emits c
  refine ⟨w, d, ?_, rest⟩
  rw [Expression.evaluate]
  exact yields_bind.2 ⟨w, _, yields, yields_pure.2 ⟨rfl, rfl⟩⟩

theorem mirrors_unary {op : UnaryOperator} {span : Span} (h : Mirrors setup tree s t type a)
    (ho : t.types.hasUnaryOperator op type = true) (hk : a.foldUnary op = .ok k) :
    Mirrors setup (.unary op span tree) s t type k := by
  refine ⟨h.retypes, fun c => ?_⟩
  obtain ⟨w, d, yields, shadows, computes⟩ := h.emits c
  refine ⟨⟨type, none⟩, d.emit (.unary op), ?_, ⟨rfl, nofun⟩, computes.unary hk⟩
  rw [Expression.evaluate]
  refine yields_bind.2 ⟨w, _, yields, yields_applyUnary_runtime.2 ?_⟩
  rw [shadows.type]
  exact ⟨ho, rfl, rfl⟩

theorem mirrors_binary {op : Operator} {span : Span} {u : Session} {source : TypeId}
    {r : Constant} (hl : Mirrors setup left s u type a) (hr : Mirrors setup right u t source r)
    (accepts : t.types.Accepts op type (TypedValue.widened t.types type ⟨source, some r⟩))
    (hb : (TypedValue.widened t.types type ⟨source, some r⟩).constant? = some b)
    (hk : a.foldBinary op b = .ok k) :
    Mirrors setup (.binary op span left right) s t (op.resultType type) k := by
  constructor
  · obtain ⟨types, rfl⟩ := hl.retypes
    obtain ⟨types', rfl⟩ := hr.retypes
    exact ⟨types', rfl⟩
  intro c
  obtain ⟨w, d, yields, shadows, computes⟩ := hl.emits c
  obtain ⟨w', e, yields', shadows', computes'⟩ := hr.emits d
  have widened := shadows_widened shadows' hb
  refine ⟨⟨op.resultType type, none⟩, (e.widen t.types type source).emit (.binary op), ?_,
    ⟨rfl, nofun⟩, computes.binary (computes_widened computes' hb) hk⟩
  rw [Expression.evaluate]
  refine yields_bind.2 ⟨w, _, yields, yields_bind.2 ⟨w', _, yields', ?_⟩⟩
  rw [yields_applyBinary_runtime, shadows.type, shadows'.type]
  refine ⟨⟨?_, accepts.operator, ?_⟩, rfl, rfl⟩
  · rw [widened.type]
    exact accepts.compatible
  · apply dividesByZero_shadow widened
    rw [← hb]
    exact accepts.nonzero

theorem evaluate_mirrors (h : (tree.evaluate .constant).Yields setup s v t) :
    ∃ k, v.constant? = some k ∧ Mirrors setup tree s t v.type k := by
  induction tree generalizing s v t with
  | literal value =>
    rw [Expression.evaluate] at h
    obtain ⟨type, u, typed, pushed⟩ := yields_bind.1 h
    obtain ⟨rfl, rfl⟩ := yields_pushConstant_constant.1 pushed
    exact ⟨value, rfl, mirrors_literal typed⟩
  | name r =>
    rw [Expression.evaluate] at h
    obtain ⟨x, u, resolved, valued⟩ := yields_bind.1 h
    obtain ⟨_, rfl, _⟩ := yields_resolve resolved
    obtain ⟨k, stands⟩ := stands_of_yields (.inl rfl) valued
    dsimp only at valued
    rw [stands.evaluates] at valued
    obtain ⟨rfl, rfl⟩ := yields_pushConstant_constant.1 valued
    exact ⟨k, rfl, mirrors_name resolved stands⟩
  | group inner unclosed? ih =>
    rw [Expression.evaluate] at h
    obtain ⟨v', u, yields, closed⟩ := yields_bind.1 h
    cases unclosed? with
    | some fault => exact absurd closed not_yields_failAt
    | none =>
      obtain ⟨rfl, rfl⟩ := yields_pure.1 closed
      obtain ⟨k, hk, mirrors⟩ := ih yields
      exact ⟨k, hk, mirrors_group mirrors⟩
  | unary op span operand ih =>
    rw [Expression.evaluate] at h
    obtain ⟨v', u, yields, applied⟩ := yields_bind.1 h
    obtain ⟨a, ha, mirrors⟩ := ih yields
    obtain ⟨ho, folded⟩ := yields_applyUnary_constant.1 applied
    obtain ⟨a', k, ha', hk, rfl, rfl⟩ := yields_foldUnary.1 folded
    rw [ha] at ha'
    cases ha'
    exact ⟨k, rfl, mirrors_unary mirrors ho hk⟩
  | binary op span left right ihl ihr =>
    rw [Expression.evaluate] at h
    obtain ⟨v₁, s₁, yields, rest⟩ := yields_bind.1 h
    obtain ⟨v₂, s₂, yields', applied⟩ := yields_bind.1 rest
    obtain ⟨a, ha, mirrors⟩ := ihl yields
    obtain ⟨r, hr, mirrors'⟩ := ihr yields'
    obtain ⟨accepts, folded⟩ := yields_applyBinary_constant.1 applied
    obtain ⟨a', b, k, ha', hb, hk, rfl, rfl⟩ := yields_foldBinary.1 folded
    rw [ha] at ha'
    cases ha'
    obtain ⟨source, constant?⟩ := v₂
    cases hr
    exact ⟨k, rfl, mirrors_binary mirrors mirrors' accepts hb hk⟩
  | missing fault =>
    rw [Expression.evaluate] at h
    exact absurd h not_yields_failAt

end Action

end FrontEnd
