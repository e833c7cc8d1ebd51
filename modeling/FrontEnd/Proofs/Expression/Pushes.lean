import FrontEnd.Proofs.Expression.Stack
import FrontEnd.Proofs.Expression.Modes
import FrontEnd.Proofs.Expression.Evaluation
import FrontEnd.Proofs.Session.Checks

/-!
The code of an expression. It leaves one value of the type of the expression on the stack, by the
types of the session that it was emitted in and by those of any later one.
-/

namespace FrontEnd

namespace Session

variable {s t u : Session} {P P' Q : TypeTable → List Instruction → Prop}

/-- Code with the property `P` has been appended since `s`. The types that it depends on are in
use. -/
def Emits (s t : Session) (P : TypeTable → List Instruction → Prop) : Prop :=
  ∃ more, s.code.Appends t.code more ∧ ∀ u, t.Fixes u → P u.types more

theorem emits_nil (ht : t.code = s.code) (h : ∀ types, P types []) : s.Emits t P :=
  ⟨[], ⟨by rw [ht], by rw [ht, List.append_nil]⟩, fun _ _ => h _⟩

theorem emits_emit {i : Instruction} (ht : t.code = s.code.emit i)
    (h : ∀ u, t.Fixes u → P u.types [i]) : s.Emits t P :=
  ⟨[i], ht ▸ Code.appends_emit s.code i, h⟩

theorem Emits.imp (h : s.Emits t P) (hQ : ∀ types code, P types code → Q types code) :
    s.Emits t Q := by
  obtain ⟨more, appends, holds⟩ := h
  exact ⟨more, appends, fun u f => hQ _ _ (holds u f)⟩

theorem Emits.append (h : s.Emits t P) (f : t.Fixes u) (h' : t.Emits u P')
    (hQ : ∀ types code more, P types code → P' types more → Q types (code ++ more)) :
    s.Emits u Q := by
  obtain ⟨code, appends, holds⟩ := h
  obtain ⟨more, appends', holds'⟩ := h'
  exact ⟨code ++ more, appends.trans appends', fun v f' =>
    hQ _ _ _ (holds v (f.trans f')) (holds' v f')⟩

/-- Where nothing but code is emitted, the code was emitted since before. -/
theorem Emits.of_code {t' : Session} (h : s.Emits t P) (hs : t'.code = s.code) : t'.Emits t P := by
  obtain ⟨more, appends, holds⟩ := h
  exact ⟨more, hs ▸ appends, holds⟩

end Session

theorem Constant.HasKind.isStructure {c : Constant} {k : TypeKind} (h : c.HasKind k) :
    k.isStructure = false := by
  cases k <;> first | rfl | (cases c <;> cases h)

namespace TypeTable

theorem isStructure_of_isReal {t : TypeTable} {id : TypeId} (h : t.isReal id = true) :
    (t.kind id).isStructure = false := by
  obtain ⟨b, hb, _⟩ := isReal_iff.1 h
  rw [hb]
  rfl

end TypeTable

namespace Action

open Session

variable {setup : Setup} {U : Set TypeId} {s t : Session} {v w : TypedValue} {type : TypeId}

/-- Code has been emitted since `s` that leaves a value of the type on the stack. -/
structure Pushed (s : Session) (type : TypeId) (t : Session) : Prop where
  settles : t.Settles type
  emits : s.Emits t (·.Pushes · type)

/-- More code is emitted behind a value. -/
theorem Pushed.emit {result : TypeId} {i : Instruction} (h : Pushed s type t)
    (settles : t.Settles result)
    (pushes : ∀ u, t.Fixes u → ∀ code, u.types.Pushes code type → u.types.Pushes (code ++ [i]) result) :
    Pushed s result { t with code := t.code.emit i } := by
  have f := t.fixes_code (t.code.emit i)
  obtain ⟨code, appends, holds⟩ := h.emits
  exact ⟨f.settles settles, code ++ [i], appends.trans (Code.appends_emit t.code i),
    fun u g => pushes u (f.trans g) code (holds u (f.trans g))⟩

theorem pushed_pushConstant {value : Constant} (settles : s.Settles type)
    (kind : value.HasKind (s.types.kind type)) :
    Pushed s type { s with code := s.code.emit (.push value) } := by
  have f := s.fixes_code (s.code.emit (.push value))
  refine ⟨f.settles settles, emits_emit rfl fun u g => TypeTable.pushes_push ?_⟩
  rw [(f.trans g).kind_eq settles]
  exact kind

theorem pushed_pushVariable (place : Storage) (settles : s.Settles type) :
    Pushed s type { s with code := (s.code.emit place.address).emit (.load type) } := by
  have f := s.fixes_code ((s.code.emit place.address).emit (.load type))
  refine ⟨f.settles settles, [place.address, .load type], ?_, fun u _ => TypeTable.pushes_load place type⟩
  exact (Code.appends_emit _ _).trans (Code.appends_emit _ _)

/-- Real numbers are of a type without parts. -/
theorem settles_of_widens {target source : TypeId} (ht : s.Usable U target)
    (hw : s.types.widens target source = true) : s.Settles target := by
  obtain ⟨hr, _⟩ := Bool.and_eq_true_iff.1 hw
  exact ⟨inUse_of_not_structure ht.has (TypeTable.isStructure_of_isReal hr), solid_of_real hr⟩

theorem Pushed.widen {target : TypeId} (h : Pushed s v.type t) (ht : t.Usable U target) :
    Pushed s (v.widened t.types target).type
      { t with code := t.code.widen t.types target v.type } := by
  unfold TypedValue.widened Code.widen
  by_cases hw : t.types.widens target v.type = true
  · rw [if_pos hw, if_pos hw]
    have settles := settles_of_widens ht hw
    refine h.emit settles fun u f code pushes => pushes.convert ?_
    rw [f.widens settles h.settles]
    exact hw
  · rw [if_neg hw, if_neg hw]
    exact h

theorem pushed_identValue {id : IdentId} {i : Ident} {span : Span} (h : s.Ready U)
    (hi : s.idents.get? id = some i)
    (hy : (identValue .runtime i span).Yields setup s v t) : Pushed s v.type t := by
  have valid := h.idents id i hi
  have carries := valid.carries
  have settles (hk : i.kind ≠ .type) : s.Settles i.type :=
    ⟨h.inUse_ident hi, valid.solid hk⟩
  unfold identValue at hy
  unfold Ident.Carries at carries
  split at hy
  · rename_i value hk hp
    rw [hk, hp] at carries
    obtain ⟨rfl, rfl⟩ := yields_pushConstant_runtime.1 hy
    exact pushed_pushConstant (settles (by rw [hk]; nofun)) carries
  · rename_i entry reserved? hk hp
    rw [hk, hp] at carries
    obtain ⟨⟨signature, hs⟩, _⟩ := carries
    obtain ⟨rfl, rfl⟩ := yields_pushConstant_runtime.1 hy
    refine pushed_pushConstant (settles (by rw [hk]; nofun)) ?_
    rw [hs]
    trivial
  · exact absurd hy not_yields_fail
  · rename_i slot hk hp _
    cases hy
    exact pushed_pushVariable (.global slot) (settles (by rw [hk]; nofun))
  · rename_i offset hk hp _
    cases hy
    exact pushed_pushVariable (.local offset) (settles (by rw [hk]; nofun))
  · exact absurd hy not_yields_fail
  · exact absurd hy not_yields_failInternal

theorem pushed_literal {value : Constant} (h : s.Ready U)
    (hy : (Expression.evaluate .runtime (.literal value)).Yields setup s v t) :
    Pushed s v.type t := by
  rw [Expression.evaluate] at hy
  obtain ⟨type, u, read, hy⟩ := yields_bind.1 hy
  obtain ⟨leads, fits⟩ := (meets_literalType h).of_run_ok read
  obtain ⟨rfl, rfl⟩ := yields_pushConstant_runtime.1 hy
  have kind := fits.constant value rfl
  have settles : u.Settles type :=
    ⟨inUse_of_not_structure fits.usable.has kind.isStructure, fits.solid⟩
  have pushed := pushed_pushConstant settles kind
  exact ⟨pushed.settles, pushed.emits.of_code (leads.evolves.keeps.code (Set.notMem_empty _)).symm⟩

theorem settles_resultType {op : Operator} {left : TypeId} (h : s.Valid U) (hl : s.Settles left) :
    s.Settles (op.resultType left) := by
  unfold Operator.resultType
  split
  · have known : TypeId.bool.index < TypeTable.initial.size := by decide
    obtain ⟨usable, kind⟩ := h.grounded.builtin known rfl
    refine ⟨inUse_of_not_structure usable.has (by rw [kind]; rfl), ?_⟩
    rw [TypeTable.isForward_eq, kind]
    rfl
  · exact hl

/-- The operands are pushed one after the other. -/
theorem pushed_binary {u : Session} {op : Operator} {span : Span} (hu : u.Ready U)
    (hv : u.Usable U v.type) (left : Pushed s v.type t) (f : t.Fixes u) (right : Pushed t w.type u)
    {x : TypedValue} {z : Session}
    (hy : (applyBinary .runtime op v w span).Yields setup u x z) : Pushed s x.type z := by
  obtain ⟨accepts, rfl, rfl⟩ := yields_applyBinary_runtime.1 hy
  have settles := f.settles left.settles
  have right := right.widen hv
  obtain ⟨more, appends, holds⟩ := left.emits
  obtain ⟨rest, appends', holds'⟩ := right.emits
  have g := u.fixes_code ((u.code.widen u.types v.type w.type).emit (.binary op))
  have back : Session.Fixes { u with code := u.code.widen u.types v.type w.type } u :=
    Session.fixes_code _ u.code
  refine ⟨g.settles (settles_resultType hu.toValid settles), more ++ rest ++ [.binary op],
    (appends.trans appends').trans (Code.appends_emit _ _), fun y k => ?_⟩
  have k := g.trans k
  refine (holds y (f.trans k)).binary (holds' y (back.trans k)) ?_ ?_
  · exact k.compatible hu.toValid settles (back.settles right.settles) accepts.compatible
  · rw [k.hasOperator settles]
    exact accepts.operator

/-- The code of an expression leaves its value on the stack. -/
theorem pushed_evaluate {tree : Expression} (h : s.Ready U) (hp : tree.IsProper)
    (hy : (tree.evaluate .runtime).Yields setup s v t) : Pushed s v.type t := by
  induction tree generalizing s t v with
  | literal value => exact pushed_literal h hy
  | name reference =>
    rw [Expression.evaluate] at hy
    obtain ⟨⟨id, i⟩, u, resolved, named⟩ := yields_bind.1 hy
    obtain ⟨hi, rfl, _⟩ := yields_resolve resolved
    exact pushed_identValue h hi named
  | group inner unclosed? ih =>
    rw [Expression.evaluate] at hy
    obtain ⟨w, u, read, hy⟩ := yields_bind.1 hy
    cases unclosed? with
    | some fault => exact absurd hy not_yields_failAt
    | none =>
      obtain ⟨rfl, rfl⟩ := yields_pure.1 hy
      exact ih h hp.1 read
  | unary op span operand ih =>
    rw [Expression.evaluate] at hy
    obtain ⟨w, u, read, hy⟩ := yields_bind.1 hy
    obtain ⟨operator, rfl, rfl⟩ := yields_applyUnary_runtime.1 hy
    have pushed := ih h hp read
    refine pushed.emit pushed.settles fun u f code pushes => pushes.unary ?_
    rw [f.hasUnaryOperator pushed.settles]
    exact operator
  | binary op span left right ihl ihr =>
    rw [Expression.evaluate] at hy
    obtain ⟨a, u, read, hy⟩ := yields_bind.1 hy
    obtain ⟨b, u', read', hy⟩ := yields_bind.1 hy
    have first : (left.evaluate .runtime).Meets setup {.code} U _ s := meets_evaluate h hp.1
    obtain ⟨leads, fits⟩ := first.of_run_ok read
    have second : (right.evaluate .runtime).Meets setup {.code} U _ u :=
      meets_evaluate leads.ready hp.2
    obtain ⟨leads', _⟩ := second.of_run_ok read'
    exact pushed_binary leads'.ready (fits.usable.evolves leads'.evolves) (ihl h hp.1 read)
      leads'.evolves.fixes (ihr leads.ready hp.2 read') hy
  | missing fault =>
    rw [Expression.evaluate] at hy
    exact absurd hy not_yields_failAt

theorem meets_pushed {stream : Stream} (h : s.Ready U) :
    (expression .runtime stream).Meets setup {.code} U
      (fun r t => r.value.Fits .runtime U t ∧ Pushed s r.value.type t) s := by
  have read : (expression .runtime stream).Meets setup {.code} U _ s := meets_expression h
  refine read.and_yields fun r t hy => ?_
  unfold expression at hy
  rw [yields_get] at hy
  obtain ⟨v, u, evaluated, done⟩ := yields_bind.1 hy
  obtain ⟨rfl, rfl⟩ := yields_pure.1 done
  exact pushed_evaluate h (Expression.isProper_read _ stream) evaluated

end Action

end FrontEnd
