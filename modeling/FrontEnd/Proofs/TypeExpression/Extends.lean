import FrontEnd.Proofs.Passes
import FrontEnd.Proofs.Symbols.Gains
import FrontEnd.Proofs.StackEffect

/-!
What reading an expression or a type adds to a session. Types are added behind those that are there
already, which keep their kinds, whether they are in use or not; names are declared in the current
scope only, and each of them is a type.
-/

namespace FrontEnd

namespace Session

variable {n : Nat} {P Q : Ident → Prop} {s t u : Session}

/-- Types, code and identifiers with `P` have been added. The first `n` types have kept their
kinds. -/
structure Extends (n : Nat) (P : Ident → Prop) (s t : Session) : Prop where
  others : t = { s with types := t.types, idents := t.idents, code := t.code }
  size : s.types.size ≤ t.types.size
  kinds : ∀ id : TypeId, id.index < n → t.types.kind id = s.types.kind id
  idents : s.idents.Gains P t.idents

namespace Extends

theorem refl (n : Nat) (P : Ident → Prop) (s : Session) : s.Extends n P s :=
  ⟨rfl, Nat.le_refl _, fun _ _ => rfl, .refl⟩

theorem trans (h : s.Extends n P t) (h' : t.Extends n P u) : s.Extends n P u where
  others := by rw [h'.others, h.others]
  size := Nat.le_trans h.size h'.size
  kinds id hi := (h'.kinds id hi).trans (h.kinds id hi)
  idents := h.idents.trans h'.idents

theorem mono (h : s.Extends n P t) (hPQ : ∀ i, P i → Q i) : s.Extends n Q t :=
  { h with idents := h.idents.mono hPQ }

theorem blocks (h : s.Extends n P t) : t.blocks = s.blocks := by rw [h.others]

theorem globals (h : s.Extends n P t) : t.globals = s.globals := by rw [h.others]

theorem modules (h : s.Extends n P t) : t.modules = s.modules := by rw [h.others]

end Extends

theorem extends_code (n : Nat) (P : Ident → Prop) (s : Session) (code : Code) :
    s.Extends n P { s with code } :=
  ⟨rfl, Nat.le_refl _, fun _ _ => rfl, .refl⟩

theorem extends_addType (hn : n ≤ s.types.size) (P : Ident → Prop) (kind : TypeKind) :
    s.Extends n P { s with types := (s.types.add kind).2 } where
  others := rfl
  size := (TypeTable.grows_add _ kind).size
  kinds _ hi := TypeTable.kind_add_of_ne kind (Nat.ne_of_lt (Nat.lt_of_lt_of_le hi hn))
  idents := .refl

/-- The first `n` types are there, and `b` are the open blocks. -/
structure Reads (s : Session) (n : Nat) (b : Blocks) : Prop where
  size : n ≤ s.types.size
  blocks : s.blocks = b

theorem Extends.reads {b : Blocks} (h : s.Extends n P t) (hs : s.Reads n b) : t.Reads n b :=
  ⟨Nat.le_trans hs.size h.size, h.blocks.trans hs.blocks⟩

end Session

/-- An identifier of the current scope that is a type. -/
structure Blocks.HoldsType (b : Blocks) (i : Ident) : Prop where
  kind : i.kind = .type
  module : i.module = b.module
  block : i.block = b.current
  payload : i.payload = .none

namespace Action

open Session

variable {setup : Setup} {root : String} {n : Nat} {P : Ident → Prop} {s t : Session}
  {stream : Stream} {mode : Mode} {v : TypedValue}

theorem yields_addType {kind : TypeKind} {type : TypeId}
    (h : (addType kind).Yields setup s type t) :
    type = ⟨s.types.size⟩ ∧ t = { s with types := (s.types.add kind).2 } := by
  cases h
  exact ⟨rfl, rfl⟩

/-! ### Expressions -/

theorem extends_literalType {value : Constant} {type : TypeId} (hn : n ≤ s.types.size)
    (h : (literalType value).Yields setup s type t) : s.Extends n P t := by
  cases value with
  | text value =>
    cases h
    exact extends_addType hn P _
  | _ =>
    cases h
    exact .refl n P s

theorem extends_pushConstant {value : Constant} {type : TypeId}
    (h : (pushConstant mode value type).Yields setup s v t) : s.Extends n P t := by
  cases mode with
  | constant =>
    obtain ⟨_, rfl⟩ := yields_pushConstant_constant.1 h
    exact .refl n P t
  | runtime =>
    obtain ⟨_, rfl⟩ := yields_pushConstant_runtime.1 h
    exact extends_code n P s _

theorem extends_identValue {i : Ident} {span : Span}
    (h : (identValue mode i span).Yields setup s v t) : s.Extends n P t := by
  unfold identValue at h
  split at h
  · exact extends_pushConstant h
  · exact extends_pushConstant h
  · exact absurd h not_yields_fail
  · cases h
    exact extends_code n P s _
  · cases h
    exact extends_code n P s _
  · exact absurd h not_yields_fail
  · exact absurd h not_yields_failInternal

theorem extends_applyUnary {op : UnaryOperator} {operand : TypedValue} {span : Span}
    (h : (applyUnary mode op operand span).Yields setup s v t) : s.Extends n P t := by
  cases mode with
  | constant =>
    obtain ⟨_, folded⟩ := yields_applyUnary_constant.1 h
    obtain ⟨_, _, _, _, _, rfl⟩ := yields_foldUnary.1 folded
    exact .refl n P t
  | runtime =>
    obtain ⟨_, _, rfl⟩ := yields_applyUnary_runtime.1 h
    exact extends_code n P s _

theorem extends_applyBinary {op : Operator} {left right : TypedValue} {span : Span}
    (h : (applyBinary mode op left right span).Yields setup s v t) : s.Extends n P t := by
  cases mode with
  | constant =>
    obtain ⟨_, folded⟩ := yields_applyBinary_constant.1 h
    obtain ⟨_, _, _, _, _, _, _, rfl⟩ := yields_foldBinary.1 folded
    exact .refl n P t
  | runtime =>
    obtain ⟨_, _, rfl⟩ := yields_applyBinary_runtime.1 h
    exact extends_code n P s _

theorem extends_evaluate {tree : Expression} (hn : n ≤ s.types.size)
    (h : (tree.evaluate mode).Yields setup s v t) : s.Extends n P t := by
  induction tree generalizing s t v with
  | literal value =>
    rw [Expression.evaluate] at h
    obtain ⟨type, u, read, pushed⟩ := yields_bind.1 h
    exact (extends_literalType hn read).trans (extends_pushConstant pushed)
  | name reference =>
    rw [Expression.evaluate] at h
    obtain ⟨⟨id, i⟩, u, resolved, named⟩ := yields_bind.1 h
    obtain ⟨_, rfl, _⟩ := yields_resolve resolved
    exact extends_identValue named
  | group inner unclosed? ih =>
    rw [Expression.evaluate] at h
    obtain ⟨w, u, read, closed⟩ := yields_bind.1 h
    cases unclosed? with
    | some fault => exact absurd closed not_yields_failAt
    | none =>
      obtain ⟨_, rfl⟩ := yields_pure.1 closed
      exact ih hn read
  | unary op span operand ih =>
    rw [Expression.evaluate] at h
    obtain ⟨w, u, read, applied⟩ := yields_bind.1 h
    exact (ih hn read).trans (extends_applyUnary applied)
  | binary op span left right ihl ihr =>
    rw [Expression.evaluate] at h
    obtain ⟨a, u, first, h⟩ := yields_bind.1 h
    obtain ⟨b, w, second, applied⟩ := yields_bind.1 h
    have first := ihl hn first
    have second := ihr (Nat.le_trans hn first.size) second
    exact (first.trans second).trans (extends_applyBinary applied)
  | missing fault =>
    rw [Expression.evaluate] at h
    exact absurd h not_yields_failAt

theorem extends_expression {rest : Rest stream TypedValue} (hn : n ≤ s.types.size)
    (h : (expression mode stream).Yields setup s rest t) : s.Extends n P t := by
  unfold expression at h
  rw [yields_get] at h
  obtain ⟨v, u, evaluated, done⟩ := yields_bind.1 h
  obtain ⟨_, rfl⟩ := yields_pure.1 done
  exact extends_evaluate hn evaluated

theorem extends_constantExpression {rest : Rest stream (Constant × TypeId)}
    (hn : n ≤ s.types.size) (h : (constantExpression stream).Yields setup s rest t) :
    s.Extends n P t :=
  extends_evaluate hn (yields_constantExpression.1 h).1

/-! ### Parts of types -/

section Types

variable {b : Blocks}

theorem extends_length {negative : Cause} {rest : Rest stream Int64} (hn : n ≤ s.types.size)
    (h : (length negative stream).Yields setup s rest t) : s.Extends n P t := by
  unfold length at h
  obtain ⟨⟨⟨value, type⟩, s', hs⟩, u, read, h⟩ := yields_bind.1 h
  have read := extends_constantExpression (P := P) hn read
  simp only [fail_bind] at h
  rw [yields_get] at h
  split at h
  · exact absurd h not_yields_fail
  split at h
  · split at h
    · obtain ⟨_, rfl⟩ := yields_pure.1 h
      exact read
    · exact absurd h not_yields_fail
  · exact absurd h not_yields_fail

theorem extends_addsType {kind : TypeKind} {type : TypeId} (hn : n ≤ s.types.size)
    (h : (addType kind).Yields setup s type t) :
    s.Extends n P t ∧ n ≤ type.index ∧ type.index < t.types.size := by
  obtain ⟨rfl, rfl⟩ := yields_addType h
  refine ⟨extends_addType hn P kind, hn, ?_⟩
  rw [TypeTable.size_add]
  exact Nat.lt_succ_self _

/-- A declared identifier is added. -/
theorem extends_declare {i : Ident} {id : IdentId} (hi : P i)
    (h : (declare i).Yields setup s id t) : s.Extends n P t := by
  obtain ⟨_, idents, added, rfl⟩ := yields_declare h
  obtain ⟨rfl, rfl, _⟩ := IdentTable.insert?_eq_some added
  exact ⟨rfl, Nat.le_refl _, fun _ _ => rfl, .push .refl hi⟩

theorem extends_addField {owner type : TypeId} {name : String} {offset : Int64} {types : TypeTable}
    (ho : n ≤ owner.index) (added : s.types.addField owner name type = some (offset, types)) :
    s.Extends n P { s with types } := by
  obtain ⟨_, size, kinds⟩ := TypeTable.addField_eq_some added
  refine ⟨rfl, Nat.le_of_eq size.symm, fun id hi => ?_, .refl⟩
  rw [kinds, if_neg]
  rintro rfl
  exact Nat.not_lt_of_le ho hi

theorem extends_textType {past : Past stream TypeId} (hn : n ≤ s.types.size)
    (h : (textType stream).PassesIn setup (history setup root) s past t) :
    s.Extends n P t ∧ past.value.index < t.types.size := by
  unfold textType at h
  obtain ⟨⟨⟨⟩, s₁, h₁⟩, _, h⟩ := passes_eat_bind h
  dsimp only at h
  split at h
  · obtain ⟨_, u, read, h⟩ := passes_bind h
    obtain ⟨_, _, h⟩ := passes_eat_bind h
    obtain ⟨type, v, added, h⟩ := passes_bind h
    obtain ⟨rfl, rfl⟩ := passes_pure h
    have read := extends_length (P := P) hn read.yields
    obtain ⟨adds, _, has⟩ := extends_addsType (Nat.le_trans hn read.size) added.yields
    exact ⟨read.trans adds, has⟩
  · rw [passes_read] at h
    split at h
    · obtain ⟨type, v, added, h⟩ := passes_bind h
      obtain ⟨rfl, rfl⟩ := passes_pure h
      obtain ⟨adds, _, has⟩ := extends_addsType hn added.yields
      exact ⟨adds, has⟩
    · exact absurd h not_passes_fail

theorem passes_reference_bind {α : Type} {f : Past stream (IdentId × Ident) → Action α} {v : α}
    (h : (reference stream >>= f).PassesIn setup (history setup root) s v t) :
    ∃ past, s.idents.get? past.value.1 = some past.value.2 ∧
      (f past).PassesIn setup (history setup root) s v t := by
  obtain ⟨past, u, referred, next⟩ := passes_bind h
  obtain ⟨r, _, _, resolved⟩ := yields_reference.1 referred.yields
  obtain ⟨found, rfl, _⟩ := yields_resolve resolved
  exact ⟨past, found, next⟩

/-- A name that stands for a type. -/
theorem passes_typeReference {past : Past stream Ident}
    (h : (typeReference stream).PassesIn setup (history setup root) s past t) :
    (∃ id, s.idents.get? id = some past.value) ∧ t = s := by
  unfold typeReference at h
  obtain ⟨⟨⟨id, i⟩, s', hs⟩, found, h⟩ := passes_reference_bind h
  simp only [fail_bind] at h
  split at h
  · exact absurd h not_passes_fail
  · obtain ⟨rfl, rfl⟩ := passes_pure h
    exact ⟨⟨id, found⟩, rfl⟩

theorem extends_namedType {past : Past stream TypeId}
    (h : (namedType stream).PassesIn setup (history setup root) s past t) :
    t = s ∧ past.value.index < t.types.size := by
  unfold namedType at h
  obtain ⟨⟨i, s', hs⟩, u, referred, checked⟩ := passes_bind h
  obtain ⟨⟨id, found⟩, rfl⟩ := passes_typeReference referred
  have known := (referred.valid.idents id i found).type.has
  simp only [fail_bind] at checked
  rw [passes_get] at checked
  split at checked
  · exact absurd checked not_passes_fail
  · obtain ⟨rfl, rfl⟩ := passes_pure checked
    exact ⟨rfl, known⟩

/-- A name that is used before its declaration gets a new type. -/
theorem extends_declareForward {name : String} {exported : Bool} {span : Span} {type : TypeId}
    (hs : s.Reads n b)
    (h : (declareForward name exported span).PassesIn setup (history setup root) s type t) :
    s.Extends n b.HoldsType t := by
  unfold declareForward at h
  obtain ⟨_, _, added, h'⟩ := passes_bind h
  obtain ⟨rfl, rfl⟩ := yields_addType added.yields
  obtain ⟨id, w, declared, bound⟩ := passes_bind h'
  have forward : (s.types.add (.forward none)).2.isForward ⟨s.types.size⟩ = true :=
    TypeTable.isForward_of_kind_eq (s.types.kind_add_self _)
  have declared := declared.yields
  unfold declareType at declared
  rw [yields_get, if_pos forward] at declared
  have adds := extends_addType hs.size b.HoldsType (.forward none)
  have declares : Extends n b.HoldsType { s with types := (s.types.add (.forward none)).2 } w :=
    extends_declare ⟨rfl, congrArg Blocks.module hs.blocks, congrArg Blocks.current hs.blocks, rfl⟩
      declared
  obtain ⟨_, idents, _, rfl⟩ := yields_declare declared
  obtain ⟨_, x, modified, done⟩ := passes_bind bound
  obtain ⟨rfl, rfl⟩ := passes_pure done
  cases modified.yields
  refine (adds.trans declares).trans ⟨rfl, ?_, fun other hi => ?_, .refl⟩
  · exact Nat.le_of_eq (TypeTable.size_bind ..).symm
  · refine (TypeTable.kind_bind id other forward).trans (if_neg ?_)
    rintro rfl
    exact Nat.not_lt_of_le hs.size hi

theorem extends_namedTarget {name : Past stream String} {past : Past stream TypeId}
    (hs : s.Reads n b)
    (h : (namedTarget stream name).PassesIn setup (history setup root) s past t) :
    s.Extends n b.HoldsType t := by
  unfold namedTarget isUndeclared at h
  rw [bind_assoc, passes_get] at h
  obtain ⟨undeclared, _, asked, chosen⟩ := passes_bind h
  obtain ⟨_, rfl⟩ := passes_pure asked
  split at chosen
  · obtain ⟨type, w, declared, done⟩ := passes_bind chosen
    obtain ⟨_, rfl⟩ := passes_pure done
    exact extends_declareForward hs declared
  · obtain ⟨_, w, referred, done⟩ := passes_bind chosen
    obtain ⟨_, rfl⟩ := passes_pure done
    obtain ⟨_, rfl⟩ := passes_typeReference referred
    exact .refl n _ _

theorem passes_methodSignature_bind {α : Type} {f : Signature → Action α} {v : α}
    (h : (methodSignature >>= f).PassesIn setup (history setup root) s v t) :
    ∃ start, (f start).PassesIn setup (history setup root) s v t := by
  unfold methodSignature at h
  rw [bind_assoc, passes_get] at h
  obtain ⟨start, _, done, next⟩ := passes_bind h
  obtain ⟨_, rfl⟩ := passes_pure done
  exact ⟨start, next⟩

theorem extends_arrayLength {rest : Rest stream Int64} (hn : n ≤ s.types.size)
    (h : (arrayLength stream).PassesIn setup (history setup root) s rest t) : s.Extends n P t := by
  unfold arrayLength at h
  split at h
  · obtain ⟨_, rfl⟩ := passes_pure h
    exact .refl n P t
  · exact extends_length hn h.yields

theorem extends_addStructField {owner type : TypeId} {field : DeclaredName} (ho : n ≤ owner.index)
    (h : (addStructField owner type field).PassesIn setup (history setup root) s () t) :
    s.Extends n P t := by
  unfold addStructField at h
  simp only [fail_bind] at h
  split at h
  · exact absurd h not_passes_fail
  rw [passes_get] at h
  split at h
  · exact absurd h not_passes_fail
  split at h
  · rename_i added
    cases h.yields
    exact extends_addField ho added
  · exact absurd h not_passes_fail

theorem extends_addStructFields {owner type : TypeId} {fields : List DeclaredName}
    (ho : n ≤ owner.index)
    (h : (fields.forM (addStructField owner type)).PassesIn setup (history setup root) s ⟨⟩ t) :
    s.Extends n P t := by
  induction fields generalizing s with
  | nil =>
    obtain ⟨_, rfl⟩ := passes_pure h
    exact .refl n P t
  | cons field fields ih =>
    obtain ⟨_, u, first, more⟩ := passes_bind h
    exact (extends_addStructField ho first).trans (ih more)

theorem extends_addInterface {owner : TypeId} (hn : n ≤ s.types.size)
    (h : (addInterface).PassesIn setup (history setup root) s owner t) :
    s.Extends n P t ∧ n ≤ owner.index ∧ owner.index < t.types.size := by
  unfold addInterface at h
  obtain ⟨_, u, added, h⟩ := passes_bind h
  obtain ⟨adds, ho, has⟩ := extends_addsType (P := P) hn added.yields
  obtain ⟨_, w, modified, h⟩ := passes_bind h
  obtain ⟨rfl, rfl⟩ := passes_pure h
  have self : u.Extends n P (withSelf owner u) := by
    unfold withSelf
    split
    · rename_i gained
      exact extends_addField ho gained
    · exact .refl n P u
  cases modified.yields
  exact ⟨adds.trans self, ho, Nat.lt_of_lt_of_le has self.size⟩

theorem extends_addMethod {owner : TypeId} {name : String} {signature : Signature} {span : Span}
    (hn : n ≤ s.types.size) (ho : n ≤ owner.index)
    (h : (addMethod owner name signature span).PassesIn setup (history setup root) s () t) :
    s.Extends n P t := by
  unfold addMethod at h
  rw [passes_get] at h
  split at h
  · exact absurd h not_passes_fail
  obtain ⟨type, u, added, h⟩ := passes_bind h
  obtain ⟨adds, _⟩ := extends_addsType (P := P) hn added.yields
  rw [passes_get] at h
  split at h
  · rename_i gained
    cases h.yields
    exact adds.trans (extends_addField ho gained)
  · exact absurd h not_passes_fail

theorem passes_addParameter {run : List Session} {type : TypeId} {default? : Option Constant}
    {signature complete : Signature} {parameter : DeclaredName}
    (h : (addParameter type default? signature parameter).PassesIn setup run s complete t) :
    s.types.addParameter? signature parameter.name type default? = some complete ∧ t = s := by
  unfold addParameter at h
  simp only [fail_bind] at h
  split at h
  · exact absurd h not_passes_fail
  rw [passes_get] at h
  split at h
  · rename_i added
    obtain ⟨rfl, rfl⟩ := passes_pure h
    exact ⟨added, rfl⟩
  · exact absurd h not_passes_fail

theorem passes_addParameters_bind {run : List Session} {α : Type} {type : TypeId}
    {default? : Option Constant} {signature : Signature} {parameters : List DeclaredName}
    {f : Signature → Action α} {v : α}
    (h : (parameters.foldlM (addParameter type default?) signature >>= f).PassesIn setup run s v t) :
    ∃ complete, parameters.foldlM
      (fun signature p => s.types.addParameter? signature p.name type default?) signature =
        some complete ∧ (f complete).PassesIn setup run s v t := by
  induction parameters generalizing signature with
  | nil => exact ⟨signature, rfl, h⟩
  | cons p parameters ih =>
    rw [List.foldlM_cons, bind_assoc] at h
    obtain ⟨extended, u, first, more⟩ := passes_bind h
    obtain ⟨added, rfl⟩ := passes_addParameter first
    obtain ⟨complete, others, next⟩ := ih more
    refine ⟨complete, ?_, next⟩
    rw [List.foldlM_cons, added]
    exact others

theorem extends_defaultValue {names defaults : Nat} {type : TypeId}
    {rest : Rest stream (Option Constant)} (hn : n ≤ s.types.size)
    (h : (defaultValue names type defaults stream).PassesIn setup (history setup root) s rest t) :
    s.Extends n P t := by
  unfold defaultValue at h
  simp only [fail_bind] at h
  split at h
  · split at h
    · exact absurd h not_passes_fail
    obtain ⟨_, u, read, h⟩ := passes_bind h
    have reads := extends_constantExpression (P := P) hn read.yields
    rw [passes_get] at h
    split at h
    · exact absurd h not_passes_fail
    obtain ⟨_, w, checked, h⟩ := passes_bind h
    obtain ⟨_, rfl⟩ := passes_pure h
    obtain ⟨_, rfl⟩ := yields_checkCompatible.1 checked.yields
    exact reads
  · split at h
    · exact absurd h not_passes_fail
    · obtain ⟨_, rfl⟩ := passes_pure h
      exact .refl n P t

theorem extends_addResult {signature complete : Signature} {type : TypeId} {span : Span}
    (hn : n ≤ s.types.size)
    (h : (addResult signature type span).PassesIn setup (history setup root) s complete t) :
    s.Extends n P t := by
  unfold addResult at h
  rw [passes_get] at h
  split at h
  · obtain ⟨_, rfl⟩ := passes_pure h
    exact .refl n P t
  obtain ⟨pointer, u, added, h⟩ := passes_bind h
  obtain ⟨adds, _⟩ := extends_addsType (P := P) hn added.yields
  rw [passes_get] at h
  split at h
  · obtain ⟨_, rfl⟩ := passes_pure h
    exact adds
  · exact absurd h not_passes_fail

end Types

/-! ### Type expressions -/

mutual

theorem extends_typeExpression {b : Blocks} (stream : Stream) {s t : Session}
    {past : Past stream TypeId} (hs : s.Reads n b)
    (h : (typeExpression stream).PassesIn setup (history setup root) s past t) :
    s.Extends n b.HoldsType t ∧ past.value.index < t.types.size := by
  rw [typeExpression] at h
  split at h
  · obtain ⟨rfl, known⟩ := extends_namedType h
    exact ⟨.refl n _ _, known⟩
  · exact extends_pointerType stream hs h
  · exact extends_arrayType stream hs h
  · exact extends_textType hs.size h
  · exact extends_structType stream hs h
  · exact extends_interfaceType stream hs h
  · exact extends_functionType stream hs h
  · exact absurd h not_passes_fail
termination_by 5 * stream.size + 1

theorem extends_pointerType {b : Blocks} (stream : Stream) {s t : Session}
    {past : Past stream TypeId} (hs : s.Reads n b)
    (h : (pointerType stream).PassesIn setup (history setup root) s past t) :
    s.Extends n b.HoldsType t ∧ past.value.index < t.types.size := by
  rw [pointerType] at h
  obtain ⟨⟨⟨⟩, s₁, h₁⟩, _, h⟩ := passes_eat_bind h
  have hlt := h₁.2
  obtain ⟨⟨base, s₂, h₂⟩, u, read, h⟩ := passes_bind h
  obtain ⟨type, v, added, h⟩ := passes_bind h
  obtain ⟨rfl, rfl⟩ := passes_pure h
  have reads := extends_pointerTarget s₁ hs read
  obtain ⟨adds, _, has⟩ := extends_addsType (reads.reads hs).size added.yields
  exact ⟨reads.trans adds, has⟩
termination_by 5 * stream.size

theorem extends_pointerTarget {b : Blocks} (stream : Stream) {s t : Session}
    {past : Past stream TypeId} (hs : s.Reads n b)
    (h : (pointerTarget stream).PassesIn setup (history setup root) s past t) :
    s.Extends n b.HoldsType t := by
  rw [pointerTarget] at h
  split at h
  · exact extends_namedTarget hs h
  · exact (extends_typeExpression stream hs h).1
termination_by 5 * stream.size + 2

theorem extends_arrayType {b : Blocks} (stream : Stream) {s t : Session}
    {past : Past stream TypeId} (hs : s.Reads n b)
    (h : (arrayType stream).PassesIn setup (history setup root) s past t) :
    s.Extends n b.HoldsType t ∧ past.value.index < t.types.size := by
  rw [arrayType] at h
  obtain ⟨⟨⟨⟩, s₁, h₁⟩, _, h⟩ := passes_eat_bind h
  obtain ⟨⟨length, s₂, h₂⟩, u, measured, h⟩ := passes_bind h
  obtain ⟨⟨⟨⟩, s₃, h₃⟩, _, h⟩ := passes_eat_bind h
  have hlt := ((h₃.of_within h₂).trans h₁).2
  obtain ⟨⟨base, s₄, h₄⟩, w, read, h⟩ := passes_bind h
  obtain ⟨type, x, added, h⟩ := passes_bind h
  have measures := extends_arrayLength (P := b.HoldsType) hs.size measured
  have reads := (extends_typeExpression s₃ (measures.reads hs) read).1
  obtain ⟨adds, _, has⟩ := extends_addsType (P := b.HoldsType)
    (reads.reads (measures.reads hs)).size added.yields
  simp only [fail_bind] at h
  rw [passes_get] at h
  split at h
  · exact absurd h not_passes_fail
  · obtain ⟨rfl, rfl⟩ := passes_pure h
    exact ⟨(measures.trans reads).trans adds, has⟩
termination_by 5 * stream.size

theorem extends_structType {b : Blocks} (stream : Stream) {s t : Session}
    {past : Past stream TypeId} (hs : s.Reads n b)
    (h : (structType stream).PassesIn setup (history setup root) s past t) :
    s.Extends n b.HoldsType t ∧ past.value.index < t.types.size := by
  rw [structType] at h
  obtain ⟨⟨⟨⟩, s₁, h₁⟩, _, h⟩ := passes_eat_bind h
  obtain ⟨⟨⟨⟩, s₂, h₂⟩, _, h⟩ := passes_eat_bind h
  have hlt := (h₂.trans h₁).2
  obtain ⟨owner, u, added, h⟩ := passes_bind h
  obtain ⟨⟨⟨⟩, s₃, h₃⟩, w, read, h⟩ := passes_bind h
  obtain ⟨_, _, h⟩ := passes_eat_bind h
  obtain ⟨rfl, rfl⟩ := passes_pure h
  obtain ⟨adds, ho, has⟩ := extends_addsType (P := b.HoldsType) hs.size added.yields
  have reads := extends_structFields s₂ (adds.reads hs) ho read
  exact ⟨adds.trans reads, Nat.lt_of_lt_of_le has reads.size⟩
termination_by 5 * stream.size

theorem extends_structFields {b : Blocks} {owner : TypeId} (stream : Stream) {s t : Session}
    {rest : Kept stream} (hs : s.Reads n b) (ho : n ≤ owner.index)
    (h : (structFields owner stream).PassesIn setup (history setup root) s rest t) :
    s.Extends n b.HoldsType t := by
  rw [structFields] at h
  split at h
  · obtain ⟨_, rfl⟩ := passes_pure h
    exact .refl n _ _
  obtain ⟨⟨⟨names, type⟩, s₁, h₁⟩, u, read, h⟩ := passes_bind h
  have hlt := h₁.2
  obtain ⟨_, w, added, h⟩ := passes_bind h
  obtain ⟨⟨⟨⟩, s₂, h₂⟩, h⟩ := passes_separator_bind h
  have hlt := (h₂.behind h₁).2
  obtain ⟨_, x, more, h⟩ := passes_bind h
  obtain ⟨_, rfl⟩ := passes_pure h
  have reads := (extends_typedNames stream hs read).1
  have adds := extends_addStructFields (P := b.HoldsType) ho added
  have both := reads.trans adds
  exact both.trans (extends_structFields s₂ (both.reads hs) ho more)
termination_by 5 * stream.size + 3

theorem extends_interfaceType {b : Blocks} (stream : Stream) {s t : Session}
    {past : Past stream TypeId} (hs : s.Reads n b)
    (h : (interfaceType stream).PassesIn setup (history setup root) s past t) :
    s.Extends n b.HoldsType t ∧ past.value.index < t.types.size := by
  rw [interfaceType] at h
  obtain ⟨⟨⟨⟩, s₁, h₁⟩, _, h⟩ := passes_eat_bind h
  obtain ⟨⟨⟨⟩, s₂, h₂⟩, _, h⟩ := passes_eat_bind h
  have hlt := (h₂.trans h₁).2
  obtain ⟨owner, u, added, h⟩ := passes_bind h
  obtain ⟨⟨⟨⟩, s₃, h₃⟩, w, read, h⟩ := passes_bind h
  obtain ⟨_, _, h⟩ := passes_eat_bind h
  obtain ⟨rfl, rfl⟩ := passes_pure h
  obtain ⟨adds, ho, has⟩ := extends_addInterface (P := b.HoldsType) hs.size added
  have reads := extends_interfaceMethods s₂ (adds.reads hs) ho read
  exact ⟨adds.trans reads, Nat.lt_of_lt_of_le has reads.size⟩
termination_by 5 * stream.size

theorem extends_interfaceMethods {b : Blocks} {owner : TypeId} (stream : Stream) {s t : Session}
    {rest : Kept stream} (hs : s.Reads n b) (ho : n ≤ owner.index)
    (h : (interfaceMethods owner stream).PassesIn setup (history setup root) s rest t) :
    s.Extends n b.HoldsType t := by
  rw [interfaceMethods] at h
  split at h
  · obtain ⟨_, rfl⟩ := passes_pure h
    exact .refl n _ _
  rename_i name s₁ h₁ _
  have hlt := h₁.2
  simp only [fail_bind] at h
  rw [passes_get] at h
  split at h
  · exact absurd h not_passes_fail
  obtain ⟨start, h⟩ := passes_methodSignature_bind h
  obtain ⟨⟨complete, s₂, h₂⟩, w, read, h⟩ := passes_bind h
  obtain ⟨_, x, added, h⟩ := passes_bind h
  obtain ⟨⟨⟨⟩, s₃, h₃⟩, h⟩ := passes_separator_bind h
  have hlt := ((h₃.behind h₂).trans h₁).2
  obtain ⟨_, y, more, h⟩ := passes_bind h
  obtain ⟨_, rfl⟩ := passes_pure h
  have reads := extends_signature s₁ hs read
  have adds := extends_addMethod (P := b.HoldsType) (reads.reads hs).size ho added
  have both := reads.trans adds
  exact both.trans (extends_interfaceMethods s₃ (both.reads hs) ho more)
termination_by 5 * stream.size

theorem extends_functionType {b : Blocks} (stream : Stream) {s t : Session}
    {past : Past stream TypeId} (hs : s.Reads n b)
    (h : (functionType stream).PassesIn setup (history setup root) s past t) :
    s.Extends n b.HoldsType t ∧ past.value.index < t.types.size := by
  rw [functionType] at h
  obtain ⟨⟨⟨⟩, s₁, h₁⟩, _, h⟩ := passes_eat_bind h
  have hlt := h₁.2
  obtain ⟨⟨complete, s₂, h₂⟩, u, read, h⟩ := passes_bind h
  obtain ⟨type, v, added, h⟩ := passes_bind h
  obtain ⟨rfl, rfl⟩ := passes_pure h
  have reads := extends_signature s₁ hs read
  obtain ⟨adds, _, has⟩ := extends_addsType (reads.reads hs).size added.yields
  exact ⟨reads.trans adds, has⟩
termination_by 5 * stream.size

theorem extends_typedNames {b : Blocks} {capacity : Nat} (stream : Stream) {s t : Session}
    {past : Past stream (List DeclaredName × TypeId)} (hs : s.Reads n b)
    (h : (typedNames capacity stream).PassesIn setup (history setup root) s past t) :
    s.Extends n b.HoldsType t ∧ past.value.2.index < t.types.size := by
  rw [typedNames] at h
  obtain ⟨⟨names, s₁, h₁⟩, _, h⟩ := passes_ofExcept_bind h
  obtain ⟨⟨⟨⟩, s₂, h₂⟩, _, h⟩ := passes_eat_bind h
  have hlt := (h₂.trans h₁).2
  obtain ⟨⟨type, s₃, h₃⟩, u, read, h⟩ := passes_bind h
  obtain ⟨rfl, rfl⟩ := passes_pure h
  exact extends_typeExpression s₂ hs read
termination_by 5 * stream.size + 2

theorem extends_signature {b : Blocks} {start : Signature} (stream : Stream) {s t : Session}
    {past : Past stream Signature} (hs : s.Reads n b)
    (h : (signature start stream).PassesIn setup (history setup root) s past t) :
    s.Extends n b.HoldsType t := by
  rw [signature] at h
  obtain ⟨⟨⟨⟩, s₁, h₁⟩, _, h⟩ := passes_eat_bind h
  have hlt := h₁.2
  obtain ⟨⟨⟨listed, defaults⟩, s₂, h₂⟩, u, read, h⟩ := passes_bind h
  obtain ⟨⟨⟨⟩, s₃, h₃⟩, _, h⟩ := passes_eat_bind h
  have h₃ := (h₃.of_within h₂).trans h₁
  have reads := extends_optionalParameters s₁ hs read
  dsimp only at h
  split at h
  · rename_i colon _
    obtain ⟨_, s₄, h₄⟩ := colon
    have hlt := (h₄.trans h₃).2
    obtain ⟨⟨result, s₅, h₅⟩, w, typed, h⟩ := passes_bind h
    obtain ⟨complete, x, added, h⟩ := passes_bind h
    obtain ⟨_, rfl⟩ := passes_pure h
    have types := (extends_typeExpression s₄ (reads.reads hs) typed).1
    have both := reads.trans types
    exact both.trans (extends_addResult (both.reads hs).size added)
  · obtain ⟨complete, x, added, h⟩ := passes_bind h
    obtain ⟨_, rfl⟩ := passes_pure h
    exact reads.trans (extends_addResult (reads.reads hs).size added)
termination_by 5 * stream.size

theorem extends_optionalParameters {b : Blocks} {start : Signature} (stream : Stream)
    {s t : Session} {rest : Rest stream (Signature × Nat)} (hs : s.Reads n b)
    (h : (optionalParameters start stream).PassesIn setup (history setup root) s rest t) :
    s.Extends n b.HoldsType t := by
  rw [optionalParameters] at h
  split at h
  · obtain ⟨_, u, read, h⟩ := passes_bind h
    obtain ⟨_, rfl⟩ := passes_pure h
    exact extends_parameterGroups stream hs read
  · obtain ⟨_, rfl⟩ := passes_pure h
    exact .refl n _ _
termination_by 5 * stream.size + 4

theorem extends_parameterGroups {b : Blocks} {start : Signature} {defaults : Nat}
    (stream : Stream) {s t : Session} {past : Past stream (Signature × Nat)} (hs : s.Reads n b)
    (h : (parameterGroups start defaults stream).PassesIn setup (history setup root) s past t) :
    s.Extends n b.HoldsType t := by
  rw [parameterGroups] at h
  obtain ⟨⟨⟨names, type⟩, s₁, h₁⟩, u, read, h⟩ := passes_bind h
  obtain ⟨⟨default?, s₂, h₂⟩, w, defaulted, h⟩ := passes_bind h
  obtain ⟨extended, _, h⟩ := passes_addParameters_bind h
  have reads := (extends_typedNames stream hs read).1
  have both := reads.trans (extends_defaultValue (reads.reads hs).size defaulted)
  dsimp only at h
  split at h
  · rename_i comma _
    obtain ⟨_, s₃, h₃⟩ := comma
    have hlt := ((h₃.of_within h₂).trans h₁).2
    obtain ⟨_, y, more, h⟩ := passes_bind h
    obtain ⟨_, rfl⟩ := passes_pure h
    exact both.trans (extends_parameterGroups s₃ (both.reads hs) more)
  · obtain ⟨_, rfl⟩ := passes_pure h
    exact both
termination_by 5 * stream.size + 3

end

end Action

end FrontEnd
