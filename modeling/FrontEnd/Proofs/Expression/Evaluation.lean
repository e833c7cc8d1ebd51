import FrontEnd.Proofs.Expression.Syntax

/-!
What expressions evaluate to. A value has a type that can be referred to and is not a forward type;
where the value is known, it is of the kind of its type, and in constant mode it is known.
-/

namespace FrontEnd

/-- The parts of a session that an expression changes. -/
def Mode.parts : Mode → Set Part
  | constant => ∅
  | runtime => {.code}

structure TypedValue.Fits (mode : Mode) (U : Set TypeId) (s : Session) (v : TypedValue) : Prop where
  usable : s.Usable U v.type
  solid : s.types.isForward v.type = false
  constant : ∀ c ∈ v.constant?, c.HasKind (s.types.kind v.type)
  known : mode = .constant → ∃ c, v.constant? = some c

theorem TypedValue.Fits.evolves {mode : Mode} {may : Set Part} {U : Set TypeId} {s t : Session}
    {v : TypedValue} (h : v.Fits mode U s) (e : s.Evolves may t) : v.Fits mode U t where
  usable := h.usable.evolves e
  solid := e.grows.solid h.usable h.solid
  constant c hc := e.grows.hasKind h.usable (h.constant c hc)
  known := h.known

namespace Session

variable {U : Set TypeId} {s : Session}

/-- The builtin types are where they were put at first. -/
theorem Grounded.builtin (h : s.Grounded U) {id : TypeId} (hi : id.index < TypeTable.initial.size)
    {b : Builtin} (hb : TypeTable.initial.kind id = .builtin b) :
    s.Usable U id ∧ s.types.kind id = .builtin b := by
  obtain ⟨hu, hk⟩ := h.builtins.2 id hi
  exact ⟨⟨Nat.lt_of_lt_of_le hi h.builtins.1, hu⟩, hk.trans hb⟩

/-- A value of a builtin type. -/
theorem Grounded.fits_builtin (h : s.Grounded U) {mode : Mode} {id : TypeId}
    (hi : id.index < TypeTable.initial.size) {b : Builtin}
    (hb : TypeTable.initial.kind id = .builtin b) {c : Option Constant}
    (hc : ∀ v ∈ c, v.HasKind (.builtin b)) (hm : mode = .constant → ∃ v, c = some v) :
    TypedValue.Fits mode U s ⟨id, c⟩ := by
  obtain ⟨hu, hk⟩ := h.builtin hi hb
  refine ⟨hu, ?_, fun v hv => ?_, hm⟩
  · rw [TypeTable.isForward_eq, hk]
    rfl
  · rw [hk]
    exact hc v hv

end Session

namespace Action

variable {setup : Setup} {U : Set TypeId} {s : Session} {mode : Mode}

theorem meets_literalType {value : Constant} (h : s.Ready U) :
    (literalType value).Meets setup ∅ U
      (fun type t => TypedValue.Fits .constant U t ⟨type, some value⟩) s := by
  have builtin {type : TypeId} {b : Builtin} (hi : type.index < TypeTable.initial.size)
      (hb : TypeTable.initial.kind type = .builtin b) (hv : value.HasKind (.builtin b)) :
      (pure type : Action TypeId).Meets setup ∅ U
        (fun type t => TypedValue.Fits .constant U t ⟨type, some value⟩) s :=
    meets_pure h (h.grounded.fits_builtin hi hb (by rintro c ⟨⟩; exact hv) fun _ => ⟨value, rfl⟩)
  cases value with
  | int value => exact builtin (by decide) rfl rfl
  | real value => exact builtin (by decide) rfl rfl
  | bool value => exact builtin (by decide) rfl trivial
  | char value => exact builtin (by decide) rfl trivial
  | text value =>
    have added : (addType (.text (setup.settings.defaultTextLength + 1))).Meets setup ∅ U _ s :=
      meets_addType h (.of_nil rfl rfl) rfl rfl (.inr rfl) trivial
    refine added.imp fun type t ht _ ha => ?_
    refine ⟨ha.usable, ?_, ?_, fun _ => ⟨_, rfl⟩⟩
    · rw [TypeTable.isForward_eq, ha.kind]
      rfl
    · rintro c ⟨⟩
      rw [ha.kind]
      trivial
  | null => exact builtin (by decide) rfl trivial

theorem meets_pushConstant {value : Constant} {type : TypeId} (h : s.Ready U)
    (hv : TypedValue.Fits .constant U s ⟨type, some value⟩) :
    (pushConstant mode value type).Meets setup mode.parts U (fun v t => v.Fits mode U t) s := by
  have fits (t : Session) (may : Set Part) (e : s.Evolves may t) :
      TypedValue.Fits mode U t ⟨type, some value⟩ :=
    ⟨hv.usable.evolves e, (hv.evolves e).solid, (hv.evolves e).constant, fun _ => ⟨value, rfl⟩⟩
  unfold pushConstant
  cases mode with
  | constant => exact meets_pure h (fits s ∅ (.refl ∅ s))
  | runtime =>
    refine (meets_emit h (.of_nil rfl rfl) rfl).bind fun _ t ht e _ => ?_
    exact meets_pure ht (fits t _ e)

theorem meets_pushVariable {address : Instruction} {type : TypeId} (h : s.Ready U)
    (hi : address.Valid U s) (hp : address.isPlain = true) (hu : s.Usable U type)
    (hs : s.types.isForward type = false) :
    (pushVariable address type).Meets setup {.code} U (fun v t => v.Fits .runtime U t) s := by
  unfold pushVariable
  refine (meets_emit h hi hp).bind fun _ t ht e _ => ?_
  have hl : Instruction.Valid U t (.load type) :=
    .of_types (fun r hr => by rw [List.mem_singleton.1 hr]; exact hu.evolves e) rfl
  refine (meets_emit ht hl rfl).bind fun _ u hu' e' _ => ?_
  have e'' := e.trans e'
  exact meets_pure hu' ⟨hu.evolves e'', e''.grows.solid hu hs, nofun, nofun⟩

/-- No identifier's payload contradicts its kind. -/
theorem meets_identValue {id : IdentId} {i : Ident} {span : Span} (h : s.Ready U)
    (hi : s.idents.get? id = some i) :
    (identValue mode i span).Meets setup mode.parts U (fun v t => v.Fits mode U t) s := by
  have valid := h.idents id i hi
  have carries := valid.carries
  unfold Ident.Carries at carries
  unfold identValue
  split at carries
  · rename_i hk hp
    rw [hk, hp]
    exact meets_fail rfl
  · rename_i value hk hp
    rw [hk, hp]
    refine meets_pushConstant h ⟨valid.type, valid.solid (by rw [hk]; nofun), ?_, fun _ => ⟨_, rfl⟩⟩
    rintro c ⟨⟩
    exact carries
  · rename_i entry reserved? hk hp
    obtain ⟨⟨signature, hs⟩, _⟩ := carries
    rw [hk, hp]
    refine meets_pushConstant h ⟨valid.type, valid.solid (by rw [hk]; nofun), ?_, fun _ => ⟨_, rfl⟩⟩
    rintro c ⟨⟩
    rw [hs]
    trivial
  · rename_i slot hk hp
    obtain ⟨g, hg, _⟩ := carries
    have solid := valid.solid (by rw [hk]; nofun)
    rw [hk, hp]
    cases mode with
    | constant => exact meets_fail rfl
    | runtime =>
      obtain ⟨hlt, _⟩ := Array.getElem?_eq_some_iff.1 hg
      refine meets_pushVariable h ⟨(fun _ hr => nomatch hr), fun n hn => ?_⟩ rfl valid.type solid
      rw [List.mem_singleton.1 hn]
      exact hlt
  · rename_i offset hk hp
    have solid := valid.solid (by rw [hk]; nofun)
    rw [hk, hp]
    cases mode with
    | constant => exact meets_fail rfl
    | runtime => exact meets_pushVariable h (.of_nil rfl rfl) rfl valid.type solid
  · exact carries.elim

theorem meets_checkUnary {op : UnaryOperator} {operand : TypeId} {span : Span} {α : Type}
    {f : Unit → Action α} {may : Set Part} {Q : α → Session → Prop}
    (hf : (f ()).Meets setup may U Q s) :
    (checkUnary op operand span >>= f).Meets setup may U Q s := by
  unfold checkUnary
  rw [bind_assoc, meets_get]
  split
  · exact meets_fail rfl
  · exact hf

theorem meets_foldUnary {op : UnaryOperator} {operand : TypedValue} {span : Span} (h : s.Ready U)
    (hv : operand.Fits .constant U s) :
    (foldUnary op operand span).Meets setup ∅ U (fun v t => v.Fits .constant U t) s := by
  unfold foldUnary
  obtain ⟨value, hc⟩ := hv.known rfl
  rw [hc]
  dsimp only
  split
  · rename_i result hr
    have kind := hv.constant value hc
    refine meets_pure h ⟨hv.usable, hv.solid, ?_, fun _ => ⟨_, rfl⟩⟩
    rintro c ⟨⟩
    exact (Constant.foldUnary_alike hr).hasKind kind
  · exact meets_fail rfl

theorem meets_applyUnary {op : UnaryOperator} {operand : TypedValue} {span : Span} (h : s.Ready U)
    (hv : operand.Fits mode U s) :
    (applyUnary mode op operand span).Meets setup mode.parts U (fun v t => v.Fits mode U t) s := by
  unfold applyUnary
  apply meets_checkUnary
  cases mode with
  | constant => exact meets_foldUnary h hv
  | runtime =>
    refine (meets_emit h (.of_nil rfl rfl) rfl).bind fun _ t ht e _ => ?_
    exact meets_pure ht ⟨hv.usable.evolves e, e.grows.solid hv.usable hv.solid, nofun, nofun⟩

theorem meets_checkCompatible {target source : TypeId} {span : Span} {α : Type}
    {f : Unit → Action α} {may : Set Part} {Q : α → Session → Prop}
    (hf : s.types.compatible target source = true → (f ()).Meets setup may U Q s) :
    (checkCompatible target source span >>= f).Meets setup may U Q s := by
  unfold checkCompatible
  rw [bind_assoc, meets_get]
  split
  · exact meets_fail rfl
  · rename_i hc
    exact hf (by simpa using hc)

theorem solid_of_real {t : TypeTable} {id : TypeId} (h : t.isReal id = true) :
    t.isForward id = false := by
  obtain ⟨b, hb, _⟩ := TypeTable.isReal_iff.1 h
  rw [TypeTable.isForward_eq, hb]
  rfl

/-- An integer that is turned into a real is known as before. -/
theorem fits_widened {target : TypeId} {value : TypedValue} (hv : value.Fits mode U s)
    (ht : s.Usable U target) (hw : s.types.widens target value.type = true) :
    TypedValue.Fits mode U s ⟨target, value.constant?.bind Constant.toReal?⟩ := by
  obtain ⟨hr, hi⟩ := Bool.and_eq_true_iff.1 hw
  refine ⟨ht, solid_of_real hr, fun c hc => ?_, fun hm => ?_⟩
  · obtain ⟨v, hv', hc⟩ := Option.bind_eq_some_iff.1 hc
    obtain ⟨n, rfl⟩ := (TypeTable.hasKind_integer hi).1 (hv.constant v hv')
    cases hc
    exact (TypeTable.hasKind_real hr).2 ⟨_, rfl⟩
  · obtain ⟨v, hv'⟩ := hv.known hm
    obtain ⟨n, rfl⟩ := (TypeTable.hasKind_integer hi).1 (hv.constant v hv')
    exact ⟨_, by rw [hv']; rfl⟩

/-- A constant that can be assigned to a place is of the kind of the place, once it has been turned
into a real where one is expected. -/
theorem holds_widenConstant {target source : TypeId} {value : Constant}
    (hv : TypedValue.Fits .constant U s ⟨source, some value⟩)
    (hc : s.types.compatible target (s.types.widenConstant target value source).2 = true) :
    s.Holds target (some (s.types.widenConstant target value source).1) := by
  have kind := hv.constant value rfl
  rintro c ⟨⟩
  unfold TypeTable.widenConstant at hc ⊢
  by_cases hw : s.types.widens target source = true
  · obtain ⟨hr, hi⟩ := Bool.and_eq_true_iff.1 hw
    obtain ⟨n, rfl⟩ := (TypeTable.hasKind_integer hi).1 kind
    rw [if_pos hw]
    exact (TypeTable.hasKind_real hr).2 ⟨_, rfl⟩
  · rw [if_neg hw] at hc ⊢
    exact TypeTable.hasKind_of_compatible hc kind

theorem meets_emitConvert {source target : TypeId} (h : s.Ready U) (hs : s.Usable U source)
    (ht : s.Usable U target) :
    (emit (.convert source target)).Meets setup {.code} U (fun _ _ => True) s := by
  refine (meets_emit h (.of_types (fun r hr => ?_) rfl) rfl).imp fun _ _ _ _ _ => trivial
  rcases List.mem_cons.1 hr with rfl | hr
  · exact hs
  · rw [List.mem_singleton.1 hr]
    exact ht

theorem meets_widen {target : TypeId} {value : TypedValue} (h : s.Ready U)
    (hv : value.Fits mode U s) (ht : s.Usable U target) :
    (widen mode target value).Meets setup mode.parts U (fun v t => v.Fits mode U t) s := by
  unfold widen
  rw [meets_get]
  split
  · exact meets_pure h hv
  rename_i hw
  have fits := fits_widened hv ht (by simpa using hw)
  cases mode with
  | constant => exact meets_pure h fits
  | runtime =>
    refine (meets_emitConvert h hv.usable ht).bind fun _ t ht' e _ => ?_
    exact meets_pure ht' (fits.evolves e)

/-- The result of a comparison is a truth value; any other result has the type of the operands. -/
theorem fits_result {op : Operator} {left : TypedValue} {c : Option Constant}
    (h : s.Grounded U) (hl : left.Fits mode U s) (hc : ∀ r ∈ c, ∃ a, a.HasKind (s.types.kind left.type) ∧
      Constant.Answers op a r) (hm : mode = .constant → ∃ r, c = some r) :
    TypedValue.Fits mode U s ⟨op.resultType left.type, c⟩ := by
  unfold Operator.resultType
  split
  · rename_i hop
    refine h.fits_builtin (by decide) rfl (fun r hr => ?_) hm
    obtain ⟨a, _, ha⟩ := hc r hr
    rw [Constant.Answers, if_pos hop] at ha
    obtain ⟨v, rfl⟩ := ha
    trivial
  · rename_i hop
    refine ⟨hl.usable, hl.solid, fun r hr => ?_, hm⟩
    obtain ⟨a, hk, ha⟩ := hc r hr
    rw [Constant.Answers, if_neg hop] at ha
    exact ha.hasKind hk

theorem meets_checkBinary {op : Operator} {left : TypeId} {right : TypedValue} {span : Span}
    {α : Type} {f : Unit → Action α} {may : Set Part} {Q : α → Session → Prop}
    (hf : s.types.compatible left right.type = true → (f ()).Meets setup may U Q s) :
    (checkBinary op left right span >>= f).Meets setup may U Q s := by
  unfold checkBinary
  rw [bind_assoc]
  refine meets_checkCompatible fun hc => ?_
  simp only [fail_bind, bind_assoc]
  rw [meets_get]
  split
  · exact meets_fail rfl
  split
  · exact meets_fail rfl
  · exact hf hc

theorem meets_foldBinary {op : Operator} {left right : TypedValue} {span : Span} (h : s.Ready U)
    (hl : left.Fits .constant U s) (hr : right.Fits .constant U s)
    (hc : s.types.compatible left.type right.type = true) :
    (foldBinary op left right span).Meets setup ∅ U (fun v t => v.Fits .constant U t) s := by
  unfold foldBinary
  obtain ⟨a, ha⟩ := hl.known rfl
  obtain ⟨b, hb⟩ := hr.known rfl
  rw [ha, hb]
  dsimp only
  split
  · rename_i result hf
    have ka := hl.constant a ha
    have kb := TypeTable.hasKind_of_compatible hc (hr.constant b hb)
    refine meets_pure h (fits_result h.grounded hl ?_ fun _ => ⟨_, rfl⟩)
    rintro r ⟨⟩
    exact ⟨a, ka, Constant.foldBinary_answers (ka.alike kb) hf⟩
  · exact meets_fail rfl

theorem meets_applyBinary {op : Operator} {left right : TypedValue} {span : Span} (h : s.Ready U)
    (hl : left.Fits mode U s) (hr : right.Fits mode U s) :
    (applyBinary mode op left right span).Meets setup mode.parts U
      (fun v t => v.Fits mode U t) s := by
  unfold applyBinary
  refine (meets_widen h hr hl.usable).bind fun right t ht e hr => ?_
  have hl := hl.evolves e
  refine meets_checkBinary fun hc => ?_
  cases mode with
  | constant => exact meets_foldBinary ht hl hr hc
  | runtime =>
    refine (meets_emit ht (.of_nil rfl rfl) rfl).bind fun _ u hu e' _ => ?_
    exact meets_pure hu (fits_result hu.grounded (hl.evolves e') nofun nofun)

/-- Evaluating a tree answers a value of a type that can be referred to. -/
theorem meets_evaluate {tree : Expression} (h : s.Ready U) (hp : tree.IsProper) :
    (tree.evaluate mode).Meets setup mode.parts U (fun v t => v.Fits mode U t) s := by
  induction tree generalizing s with
  | literal value =>
    rw [Expression.evaluate]
    refine ((meets_literalType h).allow (Set.empty_subset _)).bind fun type t ht _ hv => ?_
    exact meets_pushConstant ht hv
  | name reference =>
    rw [Expression.evaluate]
    exact meets_resolve hp fun id i hi => meets_identValue h hi
  | group inner unclosed? ih =>
    rw [Expression.evaluate]
    refine (ih h hp.1).bind fun v t ht _ hv => ?_
    cases unclosed? with
    | some fault => exact meets_failAt fun internal => nomatch (hp.2 fault rfl).symm.trans internal
    | none => exact meets_pure ht hv
  | unary op span operand ih =>
    rw [Expression.evaluate]
    exact (ih h hp).bind fun v t ht _ hv => meets_applyUnary ht hv
  | binary op span left right ihl ihr =>
    rw [Expression.evaluate]
    refine (ihl h hp.1).bind fun a t ht _ ha => ?_
    exact (ihr ht hp.2).bind fun b u hu e hb => meets_applyBinary hu (ha.evolves e) hb
  | missing fault =>
    rw [Expression.evaluate]
    exact meets_failAt fun internal => nomatch hp.symm.trans internal

theorem meets_expression {stream : Stream} (h : s.Ready U) :
    (expression mode stream).Meets setup mode.parts U (fun r t => r.value.Fits mode U t) s := by
  unfold expression
  rw [meets_get]
  refine (meets_evaluate h (Expression.isProper_read _ stream)).bind fun v t ht _ hv => ?_
  exact meets_pure ht hv

theorem meets_constantExpression {stream : Stream} (h : s.Ready U) :
    (constantExpression stream).Meets setup ∅ U
      (fun r t => TypedValue.Fits .constant U t ⟨r.value.2, some r.value.1⟩) s := by
  unfold constantExpression
  have he : (expression .constant stream).Meets setup ∅ U
    (fun r t => r.value.Fits .constant U t) s := meets_expression h
  refine he.bind fun r t ht _ hv => ?_
  obtain ⟨⟨type, c⟩, rest, hle⟩ := r
  obtain ⟨value, hc⟩ := hv.known rfl
  cases hc
  exact meets_pure ht hv

end Action

end FrontEnd
