import FrontEnd.Proofs.Separation.Agree
import FrontEnd.Proofs.Separation.Reading
import FrontEnd.Proofs.Visibility

/-!
Expressions agree. The same words are read as the same tree, whose names stand for the same on both
sides; so both sides come to values of the same type, and to the same constants unless these are the
addresses of functions, which no operator takes.
-/

namespace FrontEnd

open Session

/-- Values of types that stand for each other; in constant mode the constants are the same. -/
structure SameTyped (w : Twins) (mode : Mode) (v u : TypedValue) : Prop where
  type : w.toRenumbering.types v.type u.type
  constant : mode = .constant →
    Option.Rel (w.SameValue w.final v.type) v.constant? u.constant?

/-- The same constant and type. -/
structure SameConstant (w : Twins) (s : Session) (v u : Constant × TypeId) : Prop where
  value : w.SameValue w.final v.2 v.1 u.1
  type : w.toRenumbering.types v.2 u.2
  kind : v.1.HasKind (s.types.kind v.2)

/-- The same identifier, found under numbers that stand for each other. -/
structure SameFound (w : Twins) (s : Session) (x y : IdentId × Ident) : Prop where
  id : w.toRenumbering.idents x.1 y.1
  ident : w.SameIdent w.final x.2 y.2
  found : s.idents.get? x.1 = some x.2

/-- Functions are assigned to functions only, and nothing else is. -/
theorem TypeTable.isFunction_of_compatible {t : TypeTable} {a b : TypeId}
    (h : t.compatible a b = true) : t.IsFunction a ↔ t.IsFunction b := by
  unfold compatible at h
  simp only [Bool.or_eq_true, Bool.and_eq_true] at h
  unfold isInteger isReal isPointer isText at h
  rcases h with ((h | h) | h) | h
  · have alike := alike_of_equivalent h
    unfold IsFunction
    generalize t.kind a = k at alike ⊢
    generalize t.kind b = l at alike ⊢
    cases alike <;> simp
  all_goals
    unfold IsFunction
    cases ha : t.kind a <;> cases hb : t.kind b <;> simp_all

/-- Functions have no operators. -/
theorem Session.Valid.not_isFunction_of_hasOperator {s : Session} {op : Operator} {type : TypeId}
    (hs : s.Valid ∅) (h : s.types.hasOperator op type = true) : ¬ s.types.IsFunction type := by
  rintro ⟨signature, hk⟩
  have ne (id : TypeId) (hi : id.index < TypeTable.initial.size)
      (hf : ∀ f, TypeTable.initial.kind id ≠ .function f) : type ≠ id := by
    rintro rfl
    exact hf signature ((hs.builtins.2 _ hi).2.symm.trans hk)
  have bool : type ≠ .bool := ne _ (by decide) nofun
  have char : type ≠ .char := ne _ (by decide) nofun
  cases op <;> simp [TypeTable.hasOperator, TypeTable.isNumeric, TypeTable.isInteger,
    TypeTable.isReal, TypeTable.isText, TypeTable.isOrdinal, TypeTable.isPointer, hk, bool,
    char] at h

theorem Session.Valid.not_isFunction_of_hasUnaryOperator {s : Session} {op : UnaryOperator}
    {type : TypeId} (hs : s.Valid ∅) (h : s.types.hasUnaryOperator op type = true) :
    ¬ s.types.IsFunction type := by
  cases op with
  | negate =>
    have h : s.types.hasOperator .subtract type = true := h
    exact hs.not_isFunction_of_hasOperator h
  | not =>
    have h : s.types.hasOperator .and type = true := h
    exact hs.not_isFunction_of_hasOperator h

namespace Twins.InStep

variable {w : Twins} {s t : Session} {a b : TypeId}

theorem not_isFunction (h : w.InStep s t) {v : TypedValue} {mode : Mode} (fits : v.Fits mode ∅ s)
    (plain : ¬ s.types.IsFunction v.type) : ¬ w.final.IsFunction v.type := fun hf =>
  plain ((Passage.isFunction_final h.left_mem fits.usable.has fits.solid).1 hf)

/-- A type with constants is that of a function in the end if it is one already. -/
theorem isFunction_iff (h : w.InStep s t) {c : Constant} (kind : c.HasKind (s.types.kind a)) :
    w.final.IsFunction a ↔ s.types.IsFunction a := by
  refine Passage.isFunction_final h.left_mem (TypeTable.index_lt_of_kind_ne ?_) ?_
  · intro void
    rw [void] at kind
    cases c <;> cases kind
  · rw [TypeTable.isForward_eq]
    exact kind.isForward

/-- Equal constants whose type is not that of a function. -/
theorem sameValue (h : w.InStep s t) {c : Constant} (kind : c.HasKind (s.types.kind a))
    (plain : ¬ s.types.IsFunction a) : w.SameValue w.final a c c :=
  ⟨fun hf => absurd ((h.isFunction_iff kind).1 hf) plain, fun _ => rfl⟩

/-- What is left of widening a value. -/
theorem sameTyped_widened (h : w.InStep s t) {mode : Mode} {v u : TypedValue}
    (hab : w.toRenumbering.types a b) (same : SameTyped w mode v u)
    (fits : mode = .constant → v.Fits mode ∅ s) :
    SameTyped w mode (v.widened s.types a) (u.widened t.types b) := by
  unfold TypedValue.widened
  rw [h.widens hab same.type]
  split
  · rename_i wide
    rw [← h.widens hab same.type] at wide
    obtain ⟨real, integer⟩ := Bool.and_eq_true_iff.1 wide
    refine ⟨hab, fun hm => ?_⟩
    subst hm
    have fits := fits rfl
    obtain ⟨i, hi, hb⟩ := TypeTable.isInteger_iff.1 integer
    obtain ⟨r, hr, _⟩ := TypeTable.isReal_iff.1 real
    have plain : ¬ s.types.IsFunction v.type := fun ⟨_, hf⟩ => nomatch hi.symm.trans hf
    have plain' : ¬ s.types.IsFunction a := fun ⟨_, hf⟩ => nomatch hr.symm.trans hf
    have constant := same.constant rfl
    cases hv : v.constant? <;> cases hu : u.constant? <;> rw [hv, hu] at constant <;> cases constant
    · exact .none
    · rename_i c d value
      obtain rfl := value.plain (h.not_isFunction fits plain)
      obtain ⟨n, rfl⟩ := (TypeTable.hasKind_integer integer).1 (fits.constant c hv)
      exact .some (h.sameValue ((TypeTable.hasKind_real real).2 ⟨_, rfl⟩) plain')
  · exact same

end Twins.InStep

namespace Action

variable {w : Twins} {s t : Session} {mode : Mode} {a b : TypeId} {stream : Stream}

/-! ### Operands -/

theorem agree_literalType (h : w.InStep s t) (value : Constant) :
    w.Agree (fun _ a b => w.toRenumbering.types a b ∧ w.SameValue w.final a value value)
      (literalType value) (literalType value) s t := by
  have same {id : TypeId} (hi : id.index < TypeTable.initial.size)
      (kind : value.HasKind (TypeTable.initial.kind id))
      (plain : ∀ f, TypeTable.initial.kind id ≠ .function f) :
      w.Agree (fun _ a b => w.toRenumbering.types a b ∧ w.SameValue w.final a value value)
        (pure id) (pure id) s t := by
    have builtin := ((Passage.valid h.left_mem).builtins.2 id hi).2
    refine agree_pure h ⟨w.builtin id hi, h.sameValue (builtin ▸ kind) ?_⟩
    rintro ⟨f, hf⟩
    exact plain f (builtin.symm.trans hf)
  cases value with
  | text value =>
    refine agree_read ?_
    rw [w.settings]
    intro v s' u t' left right
    obtain ⟨step, types, kind⟩ := agree_addType h (.text _) v s' u t' left right
    refine ⟨step, types, step.sameValue ?_ ?_⟩
    · rw [kind]
      trivial
    · rintro ⟨f, hf⟩
      cases kind.symm.trans hf
  | _ => exact same (by decide) (by trivial) nofun

theorem agree_pushConstant (h : w.InStep s t) {c d : Constant} (hab : w.toRenumbering.types a b)
    (value : w.SameValue w.final a c d) :
    w.Agree (fun _ => SameTyped w mode) (pushConstant mode c a) (pushConstant mode d b) s t := by
  have same : SameTyped w mode ⟨a, some c⟩ ⟨b, some d⟩ := ⟨hab, fun _ => .some value⟩
  unfold pushConstant
  cases mode with
  | constant => exact agree_pure h same
  | runtime => exact agree_emit_bind h fun _ _ _ _ step => agree_pure step same

theorem agree_found (h : w.InStep s t) {i j : Option IdentId} {cause : Cause} {span : Span}
    (hij : Option.Rel w.toRenumbering.idents i j) :
    w.Agree (SameFound w) (found i cause span) (found j cause span) s t := by
  refine agree_of_yields h (fun _ _ left => (yields_found.1 left).2.2)
    (fun _ _ right => (yields_found.1 right).2.2) fun x y left right => ?_
  obtain ⟨rfl, hx, _⟩ := yields_found.1 left
  obtain ⟨rfl, hy, _⟩ := yields_found.1 right
  cases hij with
  | some hij => exact ⟨hij, h.sameIdent hij hx hy, hx⟩

theorem agree_resolve (h : w.InStep s t) (r : Reference) :
    w.Agree (SameFound w) (resolve r) (resolve r) s t := by
  cases r with
  | plain name span => exact agree_get (agree_found h (h.rel_find? name))
  | member file span member =>
    intro x s' y t' left right
    have left_mem := left.last_mem
    have right_mem := right.last_mem
    obtain ⟨m, name, _, hm, imports, rfl, offers, rfl⟩ := yields_resolve_member.1 left.yields
    obtain ⟨n, _, _, hn, imports', ⟨⟩, offers', rfl⟩ := yields_resolve_member.1 right.yields
    rw [h.left_modules, h.left_module] at hm imports
    rw [h.right_modules, h.right_module] at hn imports'
    have hmn := w.refers file m n ⟨hm, imports⟩ ⟨hn, imports'⟩
    have found := h.rel_findInModule? hmn name
    rw [offers.found, offers'.found] at found
    cases found with
    | some hij => exact ⟨h, hij, h.sameIdent hij offers.ident offers'.ident, offers.ident⟩

theorem agree_pushVariable (h : w.InStep s t) {i j : Instruction}
    (hab : w.toRenumbering.types a b) :
    w.Agree (fun _ => SameTyped w .runtime) (pushVariable i a) (pushVariable j b) s t :=
  agree_emit_bind h fun _ _ _ _ step => agree_emit_bind step fun _ _ _ _ step =>
    agree_pure step ⟨hab, nofun⟩

theorem agree_identValue (h : w.InStep s t) {x y : IdentId × Ident} (same : SameFound w s x y)
    (span : Span) :
    w.Agree (fun _ => SameTyped w mode) (identValue mode x.2 span) (identValue mode y.2 span)
      s t := by
  have type := same.ident.type
  have payload := same.ident.payload
  have carries := ((Passage.valid h.left_mem).idents _ _ same.found).carries
  unfold Ident.Carries at carries
  unfold identValue
  rw [← same.ident.kind]
  generalize x.2.kind = k at carries ⊢
  generalize x.2.payload = p at payload carries ⊢
  generalize y.2.payload = q at payload ⊢
  cases payload with
  | none => cases k <;> cases mode <;> first | exact agree_fail | exact agree_failInternal
  | constant value =>
    cases k with
    | constant => exact agree_pushConstant h type value
    | _ => cases mode <;> first | exact agree_fail | exact agree_failInternal
  | function entry =>
    cases k with
    | function =>
      obtain ⟨⟨signature, hf⟩, _⟩ := carries
      refine agree_pushConstant h type ⟨fun _ => ⟨_, _, entry, rfl, rfl⟩, fun plain => ?_⟩
      exact absurd ⟨signature, (Passage.grows_final h.left_mem).signature hf⟩ plain
    | _ => cases mode <;> first | exact agree_fail | exact agree_failInternal
  | global slot =>
    cases k with
    | var =>
      cases mode with
      | constant => exact agree_fail
      | runtime => exact agree_pushVariable h type
    | _ => cases mode <;> first | exact agree_fail | exact agree_failInternal
  | «local» offset =>
    cases k with
    | var =>
      cases mode with
      | constant => exact agree_fail
      | runtime => exact agree_pushVariable h type
    | _ => cases mode <;> first | exact agree_fail | exact agree_failInternal

/-! ### Operators -/

theorem agree_applyUnary (h : w.InStep s t) {v u : TypedValue} (same : SameTyped w mode v u)
    (fits : mode = .constant → v.Fits .constant ∅ s) (op : UnaryOperator) (span : Span) :
    w.Agree (fun _ => SameTyped w mode) (applyUnary mode op v span) (applyUnary mode op u span)
      s t := by
  intro x s' y t' left right
  have left_mem := left.last_mem
  have right_mem := right.last_mem
  cases mode with
  | constant =>
    obtain ⟨operator, folded⟩ := yields_applyUnary_constant.1 left.yields
    obtain ⟨_, folded'⟩ := yields_applyUnary_constant.1 right.yields
    obtain ⟨c, r, hc, hr, rfl, rfl⟩ := yields_foldUnary.1 folded
    obtain ⟨c', r', hc', hr', rfl, rfl⟩ := yields_foldUnary.1 folded'
    have fits := fits rfl
    have plain := (Passage.valid h.left_mem).not_isFunction_of_hasUnaryOperator operator
    have constant := same.constant rfl
    rw [hc, hc'] at constant
    cases constant with
    | some value =>
      obtain rfl := value.plain (h.not_isFunction fits plain)
      cases hr.symm.trans hr'
      have kind := (Constant.foldUnary_alike hr).hasKind (fits.constant c hc)
      exact ⟨h, same.type, fun _ => .some (h.sameValue kind plain)⟩
  | runtime =>
    obtain ⟨_, rfl, rfl⟩ := yields_applyUnary_runtime.1 left.yields
    obtain ⟨_, rfl, rfl⟩ := yields_applyUnary_runtime.1 right.yields
    exact ⟨inStep_code h left_mem right_mem (Array.size_push _) (Array.size_push _), same.type,
      nofun⟩

/-- Operands of the same types are turned into reals on both sides or on neither. -/
theorem size_widen (c : Code) (types : TypeTable) (target source : TypeId) :
    (c.widen types target source).size = c.size + if types.widens target source then 1 else 0 := by
  unfold Code.widen
  split
  · exact Array.size_push _
  · rfl

/-- The same value of the right operand, turned into a real where one is expected. -/
theorem fits_widened_constant {v : TypedValue} (fits : v.Fits .constant ∅ s)
    (has : s.Usable ∅ a) : (v.widened s.types a).Fits .constant ∅ s := by
  unfold TypedValue.widened
  split
  · rename_i wide
    exact fits_widened fits has wide
  · exact fits

theorem agree_applyBinary (h : w.InStep s t) {v u v' u' : TypedValue}
    (same : SameTyped w mode v u) (same' : SameTyped w mode v' u')
    (fits : mode = .constant → v.Fits .constant ∅ s ∧ v'.Fits .constant ∅ s) (op : Operator)
    (span : Span) :
    w.Agree (fun _ => SameTyped w mode) (applyBinary mode op v v' span)
      (applyBinary mode op u u' span) s t := by
  intro x s' y t' left right
  have left_mem := left.last_mem
  have right_mem := right.last_mem
  have result : w.toRenumbering.types (op.resultType v.type) (op.resultType u.type) := by
    unfold Operator.resultType
    split
    · exact w.builtin _ (by decide)
    · exact same.type
  cases mode with
  | constant =>
    have valid := Passage.valid h.left_mem
    obtain ⟨fits, fits'⟩ := fits rfl
    have fits' := fits_widened_constant fits' fits.usable
    have same' := h.sameTyped_widened same.type same' fun _ => by assumption
    obtain ⟨accepts, folded⟩ := yields_applyBinary_constant.1 left.yields
    obtain ⟨_, folded'⟩ := yields_applyBinary_constant.1 right.yields
    obtain ⟨c, d, r, hc, hd, hr, rfl, last⟩ := yields_foldBinary.1 folded
    obtain ⟨c', d', r', hc', hd', hr', rfl, last'⟩ := yields_foldBinary.1 folded'
    -- Neither operand is a function, so the constants are equal.
    have plain := valid.not_isFunction_of_hasOperator accepts.operator
    have plain' : ¬ s.types.IsFunction (v'.widened s.types v.type).type := fun hf =>
      plain ((TypeTable.isFunction_of_compatible accepts.compatible).2 hf)
    have constant := same.constant rfl
    have constant' := same'.constant rfl
    rw [hc, hc'] at constant
    rw [hd, hd'] at constant'
    cases constant with
    | some value =>
      cases constant' with
      | some value' =>
        obtain rfl := value.plain (h.not_isFunction fits plain)
        obtain rfl := value'.plain (h.not_isFunction fits' plain')
        cases hr.symm.trans hr'
        have kind := fits.constant c hc
        have kind' := TypeTable.hasKind_of_compatible accepts.compatible (fits'.constant d hd)
        have answers := Constant.foldBinary_answers (kind.alike kind') hr
        have result' : TypedValue.Fits .constant ∅ s ⟨op.resultType v.type, some r⟩ :=
          fits_result valid.grounded fits (fun r' hr => ⟨c, kind, Option.some_inj.1 hr ▸ answers⟩)
            fun _ => ⟨r, rfl⟩
        rw [last, last']
        refine ⟨h, result, fun _ => .some (h.sameValue (result'.constant r rfl) ?_)⟩
        unfold Operator.resultType
        split
        · rintro ⟨f, hf⟩
          rw [(valid.builtins.2 .bool (by decide)).2] at hf
          cases hf
        · exact plain
  | runtime =>
    obtain ⟨_, rfl, rfl⟩ := yields_applyBinary_runtime.1 left.yields
    obtain ⟨_, rfl, rfl⟩ := yields_applyBinary_runtime.1 right.yields
    have size (c : Code) (types : TypeTable) (target source : TypeId) :
        ((c.widen types target source).emit (.binary op)).size =
          c.size + ((if types.widens target source then 1 else 0) + 1) :=
      (Array.size_push _).trans (congrArg (· + 1) (size_widen ..))
    refine ⟨inStep_code h left_mem right_mem (size ..) ?_, result, nofun⟩
    rw [size, h.widens same.type same'.type]

/-! ### Trees -/

theorem agree_evaluate (h : w.InStep s t) (tree : Expression) :
    w.Agree (fun _ => SameTyped w mode) (tree.evaluate mode) (tree.evaluate mode) s t := by
  induction tree generalizing s t with
  | literal value =>
    rw [Expression.evaluate]
    exact agree_bind (agree_literalType h value) fun _ _ _ _ _ step same =>
      agree_pushConstant step same.1 same.2
  | name r =>
    rw [Expression.evaluate]
    exact agree_bind (agree_resolve h r) fun _ _ _ _ _ step same =>
      agree_identValue step same r.span
  | group inner unclosed? ih =>
    rw [Expression.evaluate]
    refine agree_bind (ih h) fun _ _ _ _ _ step same => ?_
    cases unclosed? with
    | some fault => exact agree_of_not_left fun _ _ failed => not_yields_failAt failed.yields
    | none => exact agree_pure step same
  | unary op span operand ih =>
    rw [Expression.evaluate]
    refine agree_bind (ih h) fun _ _ _ _ read step same => ?_
    refine agree_applyUnary step same (fun hm => ?_) op span
    subst hm
    exact (evaluates_of_yields (Passage.valid h.left_mem).grounded read.yields).fits
  | binary op span left right ihl ihr =>
    rw [Expression.evaluate]
    refine agree_bind (ihl h) fun _ _ _ _ read step same => ?_
    refine agree_bind (ihr step) fun _ _ _ _ read' step' same' => ?_
    refine agree_applyBinary step' same same' (fun hm => ?_) op span
    subst hm
    have first := evaluates_of_yields (Passage.valid h.left_mem).grounded read.yields
    have second := evaluates_of_yields first.grounded read'.yields
    exact ⟨first.fits.evolves second.evolves, second.fits⟩
  | missing fault =>
    rw [Expression.evaluate]
    exact agree_of_not_left fun _ _ failed => not_yields_failAt failed.yields

/-- Every name that a tree takes for that of a module stands for one that is imported, if the tree
has a value. -/
theorem refers_of_evaluate {setup : Setup} {tree : Expression} {v : TypedValue}
    (h : (tree.evaluate mode).Yields setup s v t) :
    ∀ r ∈ tree.references, ∀ file ∈ r.file?, ∃ id, s.Refers file id := by
  have refers {s t : Session} (e : s.Extends 0 (fun _ => True) t) {file : String} {id : ModuleId}
      (hr : t.Refers file id) : s.Refers file id := by
    unfold Session.Refers at hr ⊢
    rwa [e.modules, e.blocks] at hr
  induction tree generalizing s t v with
  | literal value => nofun
  | name r =>
    rw [Expression.evaluate] at h
    obtain ⟨x, _, resolved, _⟩ := yields_bind.1 h
    intro r' hr file hf
    cases List.mem_singleton.1 hr
    cases r with
    | plain => cases hf
    | member file span member =>
      cases hf
      obtain ⟨m, _, _, hm, imports, _⟩ := yields_resolve_member.1 resolved
      exact ⟨m, hm, imports⟩
  | group inner unclosed? ih =>
    rw [Expression.evaluate] at h
    obtain ⟨_, _, read, _⟩ := yields_bind.1 h
    exact ih read
  | unary op span operand ih =>
    rw [Expression.evaluate] at h
    obtain ⟨_, _, read, _⟩ := yields_bind.1 h
    exact ih read
  | binary op span left right ihl ihr =>
    rw [Expression.evaluate] at h
    obtain ⟨_, _, first, h⟩ := yields_bind.1 h
    obtain ⟨_, _, second, _⟩ := yields_bind.1 h
    intro r hr file hf
    rcases List.mem_append.1 hr with hr | hr
    · exact ihl first r hr file hf
    · obtain ⟨id, hi⟩ := ihr second r hr file hf
      exact ⟨id, refers (extends_evaluate (Nat.zero_le _) first) hi⟩
  | missing fault => nofun

/-- What the module being read refers to is a module on both sides or on neither. -/
theorem left_isModule (h : w.InStep s t) {file : String} {id : ModuleId}
    (hr : s.Refers file id) : s.isModule file = t.isModule file := by
  unfold Session.Refers at hr
  unfold Session.isModule
  rw [h.left_modules, h.left_module] at hr
  rw [h.left_modules, h.right_modules]
  exact w.left_refers file id hr

theorem right_isModule (h : w.InStep s t) {file : String} {id : ModuleId}
    (hr : t.Refers file id) : s.isModule file = t.isModule file := by
  unfold Session.Refers at hr
  unfold Session.isModule
  rw [h.right_modules, h.right_module] at hr
  rw [h.left_modules, h.right_modules]
  exact w.right_refers file id hr

theorem agree_expression (h : w.InStep s t) (stream : Stream) :
    w.Agree (fun _ => SameRest (SameTyped w mode)) (expression mode stream)
      (expression mode stream) s t := by
  unfold expression
  refine agree_get ?_
  intro _ _ _ _ left right
  obtain ⟨v, s', read, left⟩ := passes_bind left
  obtain ⟨u, t', read', right⟩ := passes_bind right
  have trees := Expression.read_congr (p := s.isModule) (q := t.isModule) (s := stream)
    (fun r hr file hf =>
      have ⟨_, refers⟩ := refers_of_evaluate read.yields r hr file hf
      left_isModule h refers)
    (fun r hr file hf =>
      have ⟨_, refers⟩ := refers_of_evaluate read'.yields r hr file hf
      right_isModule h refers)
  rw [show Expression.readAbove t.isModule 1 stream = Expression.readAbove s.isModule 1 stream
    from trees.symm] at read' right
  obtain ⟨step, same⟩ := agree_evaluate h _ _ _ _ _ read read'
  obtain ⟨rfl, rfl⟩ := passes_pure left
  obtain ⟨rfl, rfl⟩ := passes_pure right
  exact ⟨step, rfl, same⟩

theorem agree_constantExpression (h : w.InStep s t) (stream : Stream) :
    w.Agree (fun s => SameRest (SameConstant w s)) (constantExpression stream)
      (constantExpression stream) s t := by
  intro r s' r' t' left right
  have kind := (evaluates_of_yields (Passage.valid h.left_mem).grounded
    (yields_constantExpression.1 left.yields).1).fits.constant r.value.1 rfl
  unfold constantExpression at left right
  obtain ⟨⟨v, rest, le⟩, u, read, left⟩ := passes_bind left
  obtain ⟨⟨v', rest', le'⟩, u', read', right⟩ := passes_bind right
  obtain ⟨step, rfl, same⟩ := agree_expression h stream _ _ _ _ read read'
  have constant := same.constant rfl
  dsimp only at left right same
  cases hc : v.constant? <;> cases hc' : v'.constant? <;> rw [hc, hc'] at constant <;>
    rw [hc] at left <;> rw [hc'] at right <;> cases constant
  · exact absurd left.yields not_yields_failInternal
  · rename_i value
    obtain ⟨rfl, rfl⟩ := passes_pure left
    obtain ⟨rfl, rfl⟩ := passes_pure right
    exact ⟨step, rfl, value, same.type, kind⟩

/-- A constant is turned into a real on both sides or on neither. -/
theorem sameConstant_widen (h : w.InStep s t) (hab : w.toRenumbering.types a b)
    {v u : Constant × TypeId} (same : SameConstant w s v u) :
    SameConstant w s (s.types.widenConstant a v.1 v.2) (t.types.widenConstant b u.1 u.2) := by
  unfold TypeTable.widenConstant
  rw [h.widens hab same.type]
  split
  · rename_i wide
    rw [← h.widens hab same.type] at wide
    obtain ⟨real, integer⟩ := Bool.and_eq_true_iff.1 wide
    obtain ⟨i, hi, _⟩ := TypeTable.isInteger_iff.1 integer
    obtain ⟨r, hr, _⟩ := TypeTable.isReal_iff.1 real
    obtain ⟨n, hn⟩ := (TypeTable.hasKind_integer integer).1 same.kind
    have plain : ¬ w.final.IsFunction v.2 := fun hf => by
      obtain ⟨f, hf⟩ := (h.isFunction_iff same.kind).1 hf
      cases hi.symm.trans hf
    rw [← same.value.plain plain, hn]
    have kind : Constant.HasKind (.real (Float.ofInt n.toInt)) (s.types.kind a) :=
      (TypeTable.hasKind_real real).2 ⟨_, rfl⟩
    refine ⟨h.sameValue kind ?_, hab, kind⟩
    rintro ⟨f, hf⟩
    cases hr.symm.trans hf
  · exact same

/-- A constant that is assigned is the same for the type that it is assigned to. -/
theorem sameValue_of_compatible (h : w.InStep s t) {c d : Constant}
    (compatible : s.types.compatible a b = true) (kind : c.HasKind (s.types.kind b))
    (value : w.SameValue w.final b c d) : w.SameValue w.final a c d := by
  have kind' := TypeTable.hasKind_of_compatible compatible kind
  have functions : w.final.IsFunction a ↔ w.final.IsFunction b := by
    rw [h.isFunction_iff kind', h.isFunction_iff kind]
    exact TypeTable.isFunction_of_compatible compatible
  exact ⟨fun ha => value.address (functions.1 ha),
    fun ha => value.plain fun hb => ha (functions.2 hb)⟩

/-- A reference stands for the same on both sides. -/
theorem agree_reference (h : w.InStep s t) (stream : Stream) :
    w.Agree (fun s => SamePast (SameFound w s)) (reference stream) (reference stream) s t := by
  unfold reference
  refine agree_get ?_
  cases hl : Reference.read? s.isModule stream with
  | none => exact agree_fail
  | some past =>
    cases hr : Reference.read? t.isModule stream with
    | none => exact agree_of_not_right fun _ _ => not_passes_fail
    | some past' =>
      intro _ _ _ _ left right
      obtain ⟨x, s', read, left⟩ := passes_bind left
      obtain ⟨y, t', read', right⟩ := passes_bind right
      have files {u u' : Session} {setup : Setup} {p : Past stream Reference}
          {x : IdentId × Ident} (resolved : (resolve p.value).Yields setup u x u') :
          ∀ file ∈ p.value.file?, ∃ id, u.Refers file id := by
        intro file hf
        cases hp : p.value with
        | plain => rw [hp] at hf; cases hf
        | member file' span member =>
          rw [hp] at hf resolved
          cases hf
          obtain ⟨m, _, _, hm, imports, _⟩ := yields_resolve_member.1 resolved
          exact ⟨m, hm, imports⟩
      obtain rfl := Reference.read?_congr hl hr
        (fun r hr file hf => by
          obtain rfl := List.mem_singleton.1 hr
          obtain ⟨_, refers⟩ := files read.yields file hf
          exact left_isModule h refers)
        (fun r hr file hf => by
          obtain rfl := List.mem_singleton.1 hr
          obtain ⟨_, refers⟩ := files read'.yields file hf
          exact right_isModule h refers)
      obtain ⟨step, same⟩ := agree_resolve h _ _ _ _ _ read read'
      obtain ⟨rfl, rfl⟩ := passes_pure left
      obtain ⟨rfl, rfl⟩ := passes_pure right
      exact ⟨step, rfl, same⟩

end Action

end FrontEnd
