import FrontEnd.Proofs.Expression.Agreement
import FrontEnd.Proofs.Expression.Evaluation
import FrontEnd.Proofs.Number.Real

/-!
When constant mode succeeds. Where runtime mode succeeds on a tree without variables, constant mode
succeeds as well, unless a fold itself fails: the types of the operands are never the reason.
-/

namespace FrontEnd

namespace Expression

/-- The references of a tree, from left to right. -/
def references : Expression → List Reference
  | literal _ | missing _ => []
  | name r => [r]
  | group inner _ => inner.references
  | unary _ _ operand => operand.references
  | binary _ _ left right => left.references ++ right.references

/-- No reference of the tree stands for a variable. -/
def ReadsNoVariable (setup : Setup) (s : Session) (tree : Expression) : Prop :=
  ∀ r ∈ tree.references, ∀ x t, (Action.resolve r).Yields setup s x t → x.2.kind ≠ .var

/-- Constant mode comes to a part of a tree, in the session that is left by the parts before it. -/
inductive Reaches (setup : Setup) : Expression → Session → Expression → Session → Prop
  | here (tree : Expression) (s : Session) : Reaches setup tree s tree s
  | group {inner part : Expression} {unclosed? : Option Fault} {s t : Session}
      (h : Reaches setup inner s part t) : Reaches setup (.group inner unclosed?) s part t
  | unary {op : UnaryOperator} {span : Span} {operand part : Expression} {s t : Session}
      (h : Reaches setup operand s part t) : Reaches setup (.unary op span operand) s part t
  | left {op : Operator} {span : Span} {left right part : Expression} {s t : Session}
      (h : Reaches setup left s part t) : Reaches setup (.binary op span left right) s part t
  | right {op : Operator} {span : Span} {left right part : Expression} {s t u : Session}
      {v : TypedValue} (yields : (left.evaluate .constant).Yields setup s v t)
      (h : Reaches setup right t part u) : Reaches setup (.binary op span left right) s part u

/-- A part of the tree at `span` compares two reals one of which is no number. -/
def ComparesNaN (setup : Setup) (s : Session) (tree : Expression) (span : Span) : Prop :=
  ∃ op left right s₁ v s₂ w s₃ x y, Reaches setup tree s (.binary op span left right) s₁ ∧
    (left.evaluate .constant).Yields setup s₁ v s₂ ∧
    (right.evaluate .constant).Yields setup s₂ w s₃ ∧ op.isComparison = true ∧
    v.constant? = some (.real x) ∧ (w.widened s₃.types v.type).constant? = some (.real y) ∧
    (x.isNaN = true ∨ y.isNaN = true)

/-- Why a fold at `span` can fail: it divides by zero, its result does not fit into a word, or it
compares a real that is no number. -/
def FoldFails (setup : Setup) (s : Session) (tree : Expression) (span : Span) : FoldFault → Prop
  | .divisionByZero | .overflow => True
  | .unsupported => tree.ComparesNaN setup s span

variable {setup : Setup} {s t : Session} {tree left right : Expression} {fault : FoldFault}
  {span : Span}

/-- What names stand for does not depend on the types. -/
theorem ReadsNoVariable.types {types : TypeTable} (h : tree.ReadsNoVariable setup s) :
    tree.ReadsNoVariable setup { s with types } := by
  intro r hr x t hx
  obtain ⟨_, rfl, others⟩ := Action.yields_resolve hx
  exact h r hr x _ (others s.types s.code)

theorem foldFails_of_unsupported (h : fault = .unsupported → tree.ComparesNaN setup s span) :
    tree.FoldFails setup s span fault := by
  cases fault with
  | divisionByZero => trivial
  | overflow => trivial
  | unsupported => exact h rfl

/-- What fails in a part fails in the whole. -/
theorem FoldFails.within {part : Expression} (h : part.FoldFails setup t span fault)
    (reach : ∀ q u, Reaches setup part t q u → Reaches setup tree s q u) :
    tree.FoldFails setup s span fault := by
  apply foldFails_of_unsupported
  rintro rfl
  obtain ⟨op, l, r, s₁, v, s₂, w, s₃, x, y, reached, rest⟩ := h
  exact ⟨op, l, r, s₁, v, s₂, w, s₃, x, y, reach _ _ reached, rest⟩

end Expression

namespace Action

open Expression

variable {setup : Setup} {s t : Session} {v w : TypedValue} {tree left right : Expression}
  {span : Span} {a b : Constant} {type : TypeId}

/-! ### The kinds of constants -/

/-- Adding a type for a text keeps the builtin types and the identifiers as they are. -/
theorem grounded_addText (g : s.Grounded ∅) (n : Int64) :
    Session.Grounded ∅ { s with types := (s.types.add (.text n)).2 } := by
  have grows := Session.grows_types (s := s) (s.types.grows_add (.text n))
  constructor
  · refine ⟨Nat.le_trans g.builtins.1 grows.types.size, fun id hi => ?_⟩
    obtain ⟨hu, hk⟩ := g.builtins.2 id hi
    have hlt := Nat.lt_of_lt_of_le hi g.builtins.1
    exact ⟨hu, by rw [TypeTable.kind_add_of_ne _ (Nat.ne_of_lt hlt), hk]⟩
  · intro id i hi
    exact (g.idents id i hi).transport grows fun _ hr => hr.grows grows

/-- What constant mode leaves behind: more types, and a value of the kind of its type. -/
structure Evaluates (s t : Session) (v : TypedValue) : Prop where
  evolves : s.Evolves ∅ t
  grounded : t.Grounded ∅
  fits : v.Fits .constant ∅ t

theorem evaluates_literal {k : Constant} (g : s.Grounded ∅)
    (h : (literalType k).Yields setup s type t) : Evaluates s t ⟨type, some k⟩ := by
  have same {id : TypeId} {b : Builtin} (hi : id.index < TypeTable.initial.size)
      (hb : TypeTable.initial.kind id = .builtin b) (hk : k.HasKind (.builtin b)) :
      Evaluates s s ⟨id, some k⟩ := by
    refine ⟨.refl ∅ s, g, g.fits_builtin hi hb ?_ fun _ => ⟨k, rfl⟩⟩
    rintro c ⟨⟩
    exact hk
  cases k with
  | text value =>
    cases h
    refine ⟨⟨Session.grows_types (s.types.grows_add _), Session.keeps_types ∅ s _,
      Session.fixes_addType s _⟩, grounded_addText g _, ⟨⟨?_, nofun⟩, ?_, ?_, fun _ => ⟨_, rfl⟩⟩⟩
    · show s.types.size < (s.types.add _).2.size
      rw [TypeTable.size_add]
      exact Nat.lt_succ_self _
    · rw [TypeTable.isForward_eq]
      show ((s.types.add _).2.kind ⟨s.types.size⟩).isForward = false
      rw [TypeTable.kind_add_self]
      rfl
    · rintro c ⟨⟩
      show Constant.HasKind _ ((s.types.add _).2.kind ⟨s.types.size⟩)
      rw [TypeTable.kind_add_self]
      trivial
  | _ =>
    cases h
    exact same (by decide) rfl (by trivial)

theorem Evaluates.widened {target : TypeId} (h : Evaluates s t v) (ht : t.Usable ∅ target) :
    Evaluates s t (v.widened t.types target) := by
  refine ⟨h.evolves, h.grounded, ?_⟩
  unfold TypedValue.widened
  by_cases hw : t.types.widens target v.type = true
  · rw [if_pos hw]
    exact fits_widened h.fits ht hw
  · rw [if_neg hw]
    exact h.fits

theorem evaluates_of_yields (g : s.Grounded ∅) (h : (tree.evaluate .constant).Yields setup s v t) :
    Evaluates s t v := by
  induction tree generalizing s v t with
  | literal value =>
    rw [Expression.evaluate] at h
    obtain ⟨type, u, typed, pushed⟩ := yields_bind.1 h
    obtain ⟨rfl, rfl⟩ := yields_pushConstant_constant.1 pushed
    exact evaluates_literal g typed
  | name r =>
    rw [Expression.evaluate] at h
    obtain ⟨x, u, resolved, valued⟩ := yields_bind.1 h
    obtain ⟨hi, rfl, _⟩ := yields_resolve resolved
    obtain ⟨k, stands⟩ := stands_of_yields (.inl rfl) valued
    dsimp only at valued
    rw [stands.evaluates] at valued
    obtain ⟨rfl, rfl⟩ := yields_pushConstant_constant.1 valued
    have valid := g.idents x.1 x.2 hi
    have hk := stands.hasKind _ valid.carries
    refine ⟨.refl ∅ _, g, ⟨valid.type, ?_, ?_, fun _ => ⟨k, rfl⟩⟩⟩
    · rw [TypeTable.isForward_eq]
      exact hk.isForward
    · rintro c ⟨⟩
      exact hk
  | group inner unclosed? ih =>
    rw [Expression.evaluate] at h
    obtain ⟨v', u, yields, closed⟩ := yields_bind.1 h
    cases unclosed? with
    | some fault => exact absurd closed not_yields_failAt
    | none =>
      obtain ⟨rfl, rfl⟩ := yields_pure.1 closed
      exact ih g yields
  | unary op span operand ih =>
    rw [Expression.evaluate] at h
    obtain ⟨v', u, yields, applied⟩ := yields_bind.1 h
    have e := ih g yields
    obtain ⟨ho, folded⟩ := yields_applyUnary_constant.1 applied
    obtain ⟨a, k, ha, hk, rfl, rfl⟩ := yields_foldUnary.1 folded
    refine ⟨e.evolves, e.grounded, ⟨e.fits.usable, e.fits.solid, ?_, fun _ => ⟨k, rfl⟩⟩⟩
    rintro c ⟨⟩
    exact (Constant.foldUnary_alike hk).hasKind (e.fits.constant a ha)
  | binary op span left right ihl ihr =>
    rw [Expression.evaluate] at h
    obtain ⟨v₁, s₁, yields, rest⟩ := yields_bind.1 h
    obtain ⟨v₂, s₂, yields', applied⟩ := yields_bind.1 rest
    have el := ihl g yields
    have er := ihr el.grounded yields'
    obtain ⟨accepts, folded⟩ := yields_applyBinary_constant.1 applied
    obtain ⟨a, b, k, ha, hb, hk, rfl, rfl⟩ := yields_foldBinary.1 folded
    have fl := el.fits.evolves er.evolves
    have fr := (er.widened fl.usable).fits
    have ka := fl.constant a ha
    have kb := TypeTable.hasKind_of_compatible accepts.compatible (fr.constant b hb)
    refine ⟨el.evolves.trans er.evolves, er.grounded, fits_result er.grounded fl ?_ ?_⟩
    · rintro r ⟨⟩
      exact ⟨a, ka, Constant.foldBinary_answers (ka.alike kb) hk⟩
    · exact fun _ => ⟨k, rfl⟩
  | missing fault =>
    rw [Expression.evaluate] at h
    exact absurd h not_yields_failAt

/-! ### Folding what runtime mode accepts -/

/-- Constant mode fails because a fold of the tree fails. -/
def FailsToFold (setup : Setup) (s : Session) (tree : Expression) : Prop :=
  ∃ fault span u, (tree.evaluate .constant).run setup s =
      .error ((⟨.folding fault, span⟩ : Fault).inFile s.place.file) u ∧
    tree.FoldFails setup s span fault

/-- Constant mode yields what runtime mode has yielded, with its value, or a fold fails. -/
def Folds (setup : Setup) (tree : Expression) (s : Session) (w : TypedValue) (t : Session) : Prop :=
  (∃ k, (tree.evaluate .constant).Yields setup s ⟨w.type, some k⟩ { t with code := s.code } ∧
      ∀ c ∈ w.constant?, c = k) ∨
    FailsToFold setup s tree

theorem folds_unary {op : UnaryOperator} {k : Constant} {u : Session}
    (g : s.Grounded ∅) (yields : (tree.evaluate .constant).Yields setup s ⟨type, some k⟩ u)
    (ho : u.types.hasUnaryOperator op type = true) :
    (∃ r, (evaluate .constant (.unary op span tree)).Yields setup s ⟨type, some r⟩ u) ∨
      FailsToFold setup s (.unary op span tree) := by
  have e := evaluates_of_yields g yields
  have hb : u.types.kind .bool = .builtin .bool := (e.grounded.builtin (by decide) rfl).2
  have supported := TypeTable.foldUnary_supported hb (e.fits.constant k rfl) ho
  have checked : (checkUnary op type span).Yields setup u () u := yields_checkUnary.2 ⟨ho, rfl⟩
  cases hk : k.foldUnary op with
  | ok r =>
    refine .inl ⟨r, ?_⟩
    rw [Expression.evaluate]
    refine yields_bind.2 ⟨_, u, yields, yields_applyUnary_constant.2 ⟨ho, ?_⟩⟩
    exact yields_foldUnary.2 ⟨k, r, rfl, hk, rfl, rfl⟩
  | error fault =>
    obtain ⟨_, _, mirrors⟩ := evaluate_mirrors yields
    obtain ⟨types, rfl⟩ := mirrors.retypes
    refine .inr ⟨fault, span, { s with types }, ?_,
      foldFails_of_unsupported fun hf => absurd (hf ▸ hk) supported⟩
    rw [Expression.evaluate, yields.run_bind, applyUnary, checked.run_bind]
    exact run_foldUnary rfl hk

/-- The operator is refused for a known zero, or its operands are folded. -/
theorem folds_binary {op : Operator} {j k : Constant} {source : TypeId} {u : Session}
    (g : s.Grounded ∅) (yields : (left.evaluate .constant).Yields setup s ⟨type, some j⟩ t)
    (yields' : (right.evaluate .constant).Yields setup t ⟨source, some k⟩ u)
    (hc : u.types.compatible type (TypedValue.widened u.types type ⟨source, some k⟩).type = true)
    (ho : u.types.hasOperator op type = true) :
    (∃ r, (evaluate .constant (.binary op span left right)).Yields setup s
        ⟨op.resultType type, some r⟩ u) ∨ FailsToFold setup s (.binary op span left right) := by
  have el := evaluates_of_yields g yields
  have er := evaluates_of_yields el.grounded yields'
  have fl := el.fits.evolves er.evolves
  have fr := (er.widened fl.usable).fits
  obtain ⟨b, hb⟩ := fr.known rfl
  have ka := fl.constant j rfl
  have kb := TypeTable.hasKind_of_compatible hc (fr.constant b hb)
  obtain ⟨_, _, mirrors⟩ := evaluate_mirrors yields
  obtain ⟨_, _, mirrors'⟩ := evaluate_mirrors yields'
  obtain ⟨types, rfl⟩ := mirrors.retypes
  obtain ⟨types', rfl⟩ := mirrors'.retypes
  have widened : (widen .constant type ⟨source, some k⟩).Yields setup { s with types := types' }
      (TypedValue.widened types' type ⟨source, some k⟩) { s with types := types' } :=
    yields_widen.2 ⟨rfl, rfl⟩
  have run : (evaluate .constant (.binary op span left right)).run setup s =
      (checkBinary op type (TypedValue.widened types' type ⟨source, some k⟩) span >>= fun _ =>
        foldBinary op ⟨type, some j⟩ (TypedValue.widened types' type ⟨source, some k⟩) span).run
          setup { s with types := types' } := by
    rw [Expression.evaluate, yields.run_bind, yields'.run_bind, applyBinary, widened.run_bind]
  have checked : (checkBinary op type (TypedValue.widened types' type ⟨source, some k⟩) span).run
      setup { s with types := types' } = _ := run_checkBinary hc ho
  by_cases hz : op.dividesByZero (TypedValue.widened types' type ⟨source, some k⟩) = true
  · refine .inr ⟨.divisionByZero, span, { s with types := types' }, ?_, trivial⟩
    rw [if_pos hz] at checked
    rw [run, run_bind_error checked]
  rw [if_neg hz] at checked
  have checked : (checkBinary op type (TypedValue.widened types' type ⟨source, some k⟩) span).Yields
    setup { s with types := types' } () { s with types := types' } := checked
  cases hk : j.foldBinary op b with
  | ok r =>
    refine .inl ⟨r, ?_⟩
    show _ = _
    rw [run, checked.run_bind]
    exact yields_foldBinary.2 ⟨j, b, r, rfl, hb, hk, rfl, rfl⟩
  | error fault =>
    refine .inr ⟨fault, span, { s with types := types' }, ?_, foldFails_of_unsupported fun hf => ?_⟩
    · rw [run, checked.run_bind]
      exact run_foldBinary rfl hb hk
    · have bool : types'.kind .bool = .builtin .bool := (er.grounded.builtin (by decide) rfl).2
      have char : types'.kind .char = .builtin .char := (er.grounded.builtin (by decide) rfl).2
      obtain ⟨hop, x, y, rfl, rfl, hnone⟩ :=
        TypeTable.foldBinary_supported bool char (ka.alike kb) ka ho (hf ▸ hk)
      exact ⟨op, left, right, s, _, _, _, _, x, y, .here _ s, yields, yields', hop, rfl, hb,
        Constant.realOrder?_eq_none hnone⟩

/-- Where runtime mode succeeds on a tree without variables, so does constant mode, unless a fold
of the tree fails. -/
theorem folds_of_yields (g : s.Grounded ∅) {c : Code}
    (h : (tree.evaluate .runtime).Yields setup { s with code := c } w t)
    (hn : tree.ReadsNoVariable setup s) : Folds setup tree s w t := by
  induction tree generalizing s c w t with
  | literal value =>
    rw [Expression.evaluate] at h
    obtain ⟨type, u, typed, pushed⟩ := yields_bind.1 h
    obtain ⟨rfl, rfl⟩ := yields_pushConstant_runtime.1 pushed
    refine .inl ⟨value, ?_, ?_⟩
    · rw [Expression.evaluate]
      exact yields_bind.2 ⟨type, _, (yields_literalType typed).2 s.code,
        yields_pushConstant_constant.2 ⟨rfl, rfl⟩⟩
    · rintro _ ⟨⟩
      rfl
  | name r =>
    rw [Expression.evaluate] at h
    obtain ⟨x, u, resolved, valued⟩ := yields_bind.1 h
    obtain ⟨_, rfl, others⟩ := yields_resolve resolved
    have here : (resolve r).Yields setup s x s := others s.types s.code
    obtain ⟨k, stands⟩ := stands_of_yields (.inr (hn r (List.mem_singleton_self r) x s here)) valued
    dsimp only at valued
    rw [stands.evaluates] at valued
    obtain ⟨rfl, rfl⟩ := yields_pushConstant_runtime.1 valued
    refine .inl ⟨k, ?_, ?_⟩
    · rw [Expression.evaluate]
      refine yields_bind.2 ⟨x, s, here, ?_⟩
      dsimp only
      rw [stands.evaluates]
      exact yields_pushConstant_constant.2 ⟨rfl, rfl⟩
    · rintro _ ⟨⟩
      rfl
  | group inner unclosed? ih =>
    rw [Expression.evaluate] at h
    obtain ⟨v, u, yields, closed⟩ := yields_bind.1 h
    cases unclosed? with
    | some fault => exact absurd closed not_yields_failAt
    | none =>
      obtain ⟨rfl, rfl⟩ := yields_pure.1 closed
      rcases ih g yields hn with ⟨k, folded, known⟩ | ⟨fault, span, u, failed, reason⟩
      · refine .inl ⟨k, ?_, known⟩
        rw [Expression.evaluate]
        exact yields_bind.2 ⟨_, _, folded, yields_pure.2 ⟨rfl, rfl⟩⟩
      · refine .inr ⟨fault, span, u, ?_, reason.within fun _ _ => .group⟩
        rw [Expression.evaluate, run_bind_error failed]
  | unary op span operand ih =>
    rw [Expression.evaluate] at h
    obtain ⟨v, u, yields, applied⟩ := yields_bind.1 h
    obtain ⟨ho, rfl, rfl⟩ := yields_applyUnary_runtime.1 applied
    rcases ih g yields hn with ⟨k, folded, known⟩ | ⟨fault, place, u, failed, reason⟩
    · rcases folds_unary g folded ho with ⟨r, yields⟩ | failed
      · exact .inl ⟨r, yields, fun _ hk => absurd hk (Option.not_mem_none _)⟩
      · exact .inr failed
    · refine .inr ⟨fault, place, u, ?_, reason.within fun _ _ => .unary⟩
      rw [Expression.evaluate, run_bind_error failed]
  | binary op span left right ihl ihr =>
    rw [Expression.evaluate] at h
    obtain ⟨v₁, s₁, yields, rest⟩ := yields_bind.1 h
    obtain ⟨v₂, s₂, yields', applied⟩ := yields_bind.1 rest
    obtain ⟨accepts, rfl, rfl⟩ := yields_applyBinary_runtime.1 applied
    have hl : left.ReadsNoVariable setup s := fun r hr => hn r (List.mem_append_left _ hr)
    have hr : right.ReadsNoVariable setup s := fun r hr => hn r (List.mem_append_right _ hr)
    rcases ihl g yields hl with ⟨j, folded, _⟩ | ⟨fault, place, u, failed, reason⟩
    · obtain ⟨_, _, mirrors⟩ := evaluate_mirrors folded
      obtain ⟨types, he⟩ := mirrors.retypes
      have g' := (evaluates_of_yields g folded).grounded
      have hr : right.ReadsNoVariable setup { s₁ with code := s.code } := he ▸ hr.types
      rcases ihr g' (c := s₁.code) yields' hr with ⟨k, folded', known⟩ |
        ⟨fault, place, u, failed, reason⟩
      · have hc : s₂.types.compatible v₁.type
            (TypedValue.widened s₂.types v₁.type ⟨v₂.type, some k⟩).type = true := by
          have widened := accepts.compatible
          unfold TypedValue.widened at widened ⊢
          split at widened <;> simp_all
        rcases folds_binary g folded folded' hc accepts.operator with ⟨r, yields⟩ | failed
        · exact .inl ⟨r, yields, fun _ hk => absurd hk (Option.not_mem_none _)⟩
        · exact .inr failed
      · refine .inr ⟨fault, place, u, ?_, reason.within fun _ _ => .right folded⟩
        rw [Expression.evaluate, folded.run_bind, run_bind_error failed, he]
    · refine .inr ⟨fault, place, u, ?_, reason.within fun _ _ => .left⟩
      rw [Expression.evaluate, run_bind_error failed]
  | missing fault =>
    rw [Expression.evaluate] at h
    exact absurd h not_yields_failAt

end Action

end FrontEnd
