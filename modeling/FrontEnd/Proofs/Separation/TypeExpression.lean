import FrontEnd.Proofs.Separation.Expression

/-!
Type expressions agree. Whatever is read as a type on both sides adds types that stand for each
other, in the same order.
-/

namespace FrontEnd

open Session

/-- Structures that are the same stay the same with one more field. -/
theorem Renumbering.SameKind.withField {r : Renumbering} {final : TypeTable} {k l : TypeKind}
    {f g : Field} (h : r.SameKind final k l) (field : r.SameField f g) :
    r.SameKind final (k.withField f) (l.withField g) := by
  cases h with
  | struct fields => exact .struct (List.rel_append fields (.cons field .nil))
  | interface fields => exact .interface (List.rel_append fields (.cons field .nil))
  | builtin b => exact .builtin b
  | pointer base => exact .pointer base
  | array base length => exact .array base length
  | text capacity => exact .text capacity
  | function signature => exact .function signature
  | forward i j => exact .forward i j

namespace Action

variable {w : Twins} {s t : Session} {a b : TypeId} {stream : Stream}

/-! ### Checks -/

theorem agree_checkCompatible_bind {α β : Type} {P : Session → α → β → Prop} {f : Unit → Action α}
    {g : Unit → Action β} {c d : TypeId} {span : Span}
    (next : s.types.compatible a c = true → w.Agree P (f ()) (g ()) s t) :
    w.Agree P (checkCompatible a c span >>= f) (checkCompatible b d span >>= g) s t := by
  intro _ _ _ _ left right
  obtain ⟨_, _, checked, passed⟩ := passes_bind left
  obtain ⟨_, _, checked', passed'⟩ := passes_bind right
  obtain ⟨compatible, rfl⟩ := yields_checkCompatible.1 checked.yields
  obtain ⟨_, rfl⟩ := yields_checkCompatible.1 checked'.yields
  exact next compatible _ _ _ _ passed passed'

/-- Where both refuse something for a reason, neither has it. -/
theorem agree_unless {α β : Type} {P : Session → α → β → Prop} {p q : Prop} [Decidable p]
    [Decidable q] {f : Action α} {g : Action β} {cause cause' : Cause} {span span' : Span}
    (next : ¬ p → ¬ q → w.Agree P f g s t) :
    w.Agree P (if p then fail cause span else f) (if q then fail cause' span' else g) s t := by
  split
  · exact agree_fail
  · split
    · exact agree_of_not_right fun _ _ => not_passes_fail
    · rename_i hp hq
      exact next hp hq

/-! ### Names and lengths -/

theorem agree_typeReference (h : w.InStep s t) (stream : Stream) :
    w.Agree (fun _ => SamePast (w.SameIdent w.final)) (typeReference stream)
      (typeReference stream) s t := by
  unfold typeReference
  refine agree_bind (agree_reference h stream) fun past _ past' _ _ step same => ?_
  obtain ⟨⟨i, x⟩, rest, lt⟩ := past
  obtain ⟨⟨j, y⟩, rest', lt'⟩ := past'
  obtain ⟨rfl, same⟩ := same
  simp only [fail_bind]
  exact agree_unless fun _ _ => agree_pure step ⟨rfl, same.ident⟩

theorem agree_namedType (h : w.InStep s t) (stream : Stream) :
    w.Agree (fun _ => SamePast w.toRenumbering.types) (namedType stream) (namedType stream) s t
    := by
  unfold namedType
  refine agree_bind (agree_typeReference h stream) fun past _ past' _ _ step same => ?_
  obtain ⟨x, rest, lt⟩ := past
  obtain ⟨y, rest', lt'⟩ := past'
  obtain ⟨rfl, same⟩ := same
  simp only [fail_bind]
  exact agree_get (agree_unless fun _ _ => agree_pure step ⟨rfl, same.type⟩)

theorem agree_length (h : w.InStep s t) {negative : Cause} (stream : Stream) :
    w.Agree (fun _ => SameRest Eq) (length negative stream) (length negative stream) s t := by
  unfold length
  refine agree_bind (agree_constantExpression h stream) fun r s' r' t' _ step same => ?_
  obtain ⟨⟨v, a⟩, rest, le⟩ := r
  obtain ⟨⟨u, b⟩, rest', le'⟩ := r'
  obtain ⟨rfl, same⟩ := same
  simp only [fail_bind]
  refine agree_get (agree_unless fun compatible _ => ?_)
  -- A length is an integer, and so no address.
  have integer : s'.types.compatible .int a = true := by simpa using compatible
  have plain : ¬ w.final.IsFunction a := fun hf => by
    obtain ⟨f, hf⟩ := (TypeTable.isFunction_of_compatible integer).2
      ((step.isFunction_iff same.kind).1 hf)
    rw [((Passage.valid step.left_mem).builtins.2 .int (by decide)).2] at hf
    cases hf
  obtain rfl := same.value.plain plain
  dsimp only
  split
  · split
    · exact agree_pure step ⟨rfl, rfl⟩
    · exact agree_fail
  · exact agree_fail

theorem agree_textType (h : w.InStep s t) (stream : Stream) :
    w.Agree (fun _ => SamePast w.toRenumbering.types) (textType stream) (textType stream) s t := by
  unfold textType
  refine agree_eat_bind fun past => ?_
  obtain ⟨⟨⟩, s₁, h₁⟩ := past
  dsimp only
  split
  · refine agree_bind (agree_length h _) fun r s' r' t' _ step same => ?_
    obtain ⟨n, rest, le⟩ := r
    obtain ⟨_, rest', le'⟩ := r'
    obtain ⟨rfl, rfl⟩ := same
    refine agree_eat_bind fun past => agree_bind (agree_addType step (.text _)) ?_
    exact fun _ _ _ _ _ step same => agree_pure step ⟨rfl, same.1⟩
  · refine agree_read ?_
    rw [w.settings]
    split
    · exact agree_bind (agree_addType h (.text _)) fun _ _ _ _ _ step same =>
        agree_pure step ⟨rfl, same.1⟩
    · exact agree_fail

theorem agree_arrayLength (h : w.InStep s t) (stream : Stream) :
    w.Agree (fun _ => SameRest Eq) (arrayLength stream) (arrayLength stream) s t := by
  unfold arrayLength
  split
  · exact agree_pure h ⟨rfl, rfl⟩
  · exact agree_length h stream

/-! ### Names to come -/

theorem agree_declareForward (h : w.InStep s t) {name : String} {exported : Bool} {span : Span} :
    w.Agree (fun _ => w.toRenumbering.types) (declareForward name exported span)
      (declareForward name exported span) s t := by
  unfold declareForward
  refine agree_bind (agree_addType h (.forward none none)) fun a s' b t' _ step same => ?_
  obtain ⟨hab, kind⟩ := same
  refine agree_bind (agree_declareType step hab) fun i s'' j t'' declared step' hij => ?_
  have forward : s'.types.isForward a = true := TypeTable.isForward_of_kind_eq kind
  have forward : s''.types.isForward a = true := by
    have declared := declared.yields
    unfold declareType at declared
    rw [yields_get, if_pos forward] at declared
    obtain ⟨_, _, ⟨⟩, declared⟩ := yields_bind.1 declared
    obtain ⟨_, _, _, rfl⟩ := yields_declare declared
    exact forward
  have forward' : t''.types.isForward b = true := (step'.isForward hab).symm.trans forward
  intro _ u _ u' left right
  obtain ⟨_, x, bound, done⟩ := passes_bind left
  obtain ⟨_, x', bound', done'⟩ := passes_bind right
  have left_mem := Passage.Passes.last_mem bound
  have right_mem := Passage.Passes.last_mem bound'
  obtain ⟨rfl, rfl⟩ := passes_pure done
  obtain ⟨rfl, rfl⟩ := passes_pure done'
  cases bound.yields
  cases bound'.yields
  refine ⟨inStep_setKinds step' left_mem right_mem hab (.forward (some i) (some j))
    ⟨TypeTable.size_bind .., fun id => TypeTable.kind_bind i id forward⟩
    ⟨TypeTable.size_bind .., fun id => TypeTable.kind_bind j id forward'⟩, hab⟩

/-- What stands in front of a dot and is called like a module is looked for there. -/
theorem refers_of_reference {setup : Setup} {name : Past stream String}
    {past : Past stream (IdentId × Ident)} (named : stream.name? = some name)
    (member : (name.stream.isAt .dot && s.isModule name.value) = true)
    (h : (reference stream).Yields setup s past t) : ∃ id, s.Refers name.value id := by
  obtain ⟨dot, file⟩ := Bool.and_eq_true_iff.1 member
  obtain ⟨r, read, _, resolved⟩ := yields_reference.1 h
  obtain ⟨skipped, found⟩ := Stream.skip?_of_isAt dot nofun
  obtain ⟨first, s₁, h₁⟩ := name
  rw [Reference.read?, named] at read
  cases read
  have taken : (Reference.readFrom s.isModule stream ⟨first, s₁, h₁⟩).value.file? = some first :=
    Reference.file?_readFrom found file
  generalize (Reference.readFrom s.isModule stream ⟨first, s₁, h₁⟩).value = reference
    at taken resolved
  cases reference with
  | plain => cases taken
  | member file span member =>
    cases taken
    obtain ⟨m, _, _, hm, imports, _⟩ := yields_resolve_member.1 resolved
    exact ⟨m, hm, imports⟩

theorem refers_of_typeReference {p : Passage} {name : Past stream String} {past : Past stream Ident}
    (named : stream.name? = some name)
    (member : (name.stream.isAt .dot && s.isModule name.value) = true)
    (h : p.Passes (typeReference stream) s past t) : ∃ id, s.Refers name.value id := by
  unfold typeReference at h
  obtain ⟨_, _, read, _⟩ := passes_bind h
  exact refers_of_reference named member read.yields

theorem agree_namedTarget (h : w.InStep s t) {name : Past stream String}
    (named : stream.name? = some name) :
    w.Agree (fun _ => SamePast w.toRenumbering.types) (namedTarget stream name)
      (namedTarget stream name) s t := by
  have known : (s.idents.find? s.blocks name.value).isNone =
      (t.idents.find? t.blocks name.value).isNone := by
    have found := h.rel_find? name.value
    generalize s.idents.find? s.blocks name.value = i at found ⊢
    generalize t.idents.find? t.blocks name.value = j at found ⊢
    cases found <;> rfl
  have declares : w.Agree (fun _ => SamePast w.toRenumbering.types)
      (do
        let mark := name.stream.exportMark.after name.lt
        return ⟨← declareForward name.value mark.value stream.span, mark.stream, mark.lt⟩)
      (do
        let mark := name.stream.exportMark.after name.lt
        return ⟨← declareForward name.value mark.value stream.span, mark.stream, mark.lt⟩) s t :=
    agree_bind (agree_declareForward h) fun _ _ _ _ _ step same => agree_pure step ⟨rfl, same⟩
  unfold namedTarget isUndeclared
  simp only [bind_assoc, pure_bind]
  refine agree_get ?_
  rw [known]
  cases left : name.stream.isAt .dot && s.isModule name.value <;>
    cases right : name.stream.isAt .dot && t.isModule name.value
  case false.true =>
    -- The right one looks into a module, and then the left one does so as well.
    refine agree_of_not_right fun _ _ passes => ?_
    obtain ⟨_, _, read, _⟩ := passes_bind passes
    obtain ⟨_, refers⟩ := refers_of_typeReference named right read
    rw [right_isModule h refers, right] at left
    cases left
  case true.false =>
    refine agree_of_not_left fun _ _ passes => ?_
    obtain ⟨_, _, read, _⟩ := passes_bind passes
    obtain ⟨_, refers⟩ := refers_of_typeReference named left read
    rw [← left_isModule h refers, left] at right
    cases right
  all_goals
    split
    · exact declares
    · refine agree_bind (agree_typeReference h stream) fun past _ past' _ _ step same => ?_
      obtain ⟨x, rest, lt⟩ := past
      obtain ⟨y, rest', lt'⟩ := past'
      obtain ⟨rfl, same⟩ := same
      exact agree_pure step ⟨rfl, same.type⟩

/-! ### Structures -/

theorem rel_addField (h : w.InStep s t) {c d : TypeId} (owner : w.toRenumbering.types a b)
    (type : w.toRenumbering.types c d) (name : String) :
    Option.Rel (fun x y => x.1 = y.1) (s.types.addField a name c) (t.types.addField b name d) := by
  unfold TypeTable.addField
  rw [h.size? owner, h.size? type]
  cases t.types.size? b with
  | none => exact .none
  | some offset =>
    cases t.types.size? d with
    | none => exact .none
    | some size =>
      simp only [Option.bind_eq_bind, Option.bind_some]
      cases Word.add? offset size with
      | none => exact .none
      | some total =>
        simp only [Option.bind_some]
        split <;> split <;> exact .some rfl

/-- The same field is added to structures that stand for each other. -/
theorem inStep_addField (h : w.InStep s t) {c d : TypeId} (owner : w.toRenumbering.types a b)
    (type : w.toRenumbering.types c d) {name : String} {x y : Int64 × TypeTable}
    (left : s.types.addField a name c = some x) (right : t.types.addField b name d = some y)
    (left_mem : { s with types := x.2 } ∈ w.left.sessions)
    (right_mem : { t with types := y.2 } ∈ w.right.sessions) :
    w.InStep { s with types := x.2 } { t with types := y.2 } := by
  have offsets := rel_addField h owner type name
  rw [left, right] at offsets
  cases offsets with
  | some offsets =>
    obtain ⟨_, size, kinds⟩ := TypeTable.addField_eq_some left
    obtain ⟨_, size', kinds'⟩ := TypeTable.addField_eq_some right
    refine inStep_setKinds h left_mem right_mem owner ?_ ⟨size, kinds⟩ ⟨size', kinds'⟩
    exact (h.kinds a b owner).withField ⟨rfl, type, offsets⟩

theorem agree_addField (h : w.InStep s t) {c d : TypeId} (owner : w.toRenumbering.types a b)
    (type : w.toRenumbering.types c d) {name : String} {cause : Cause} {span : Span} :
    w.Agree (fun _ _ _ => True)
      (match s.types.addField a name c with
        | some (_, types) => set { s with types }
        | none => fail cause span)
      (match t.types.addField b name d with
        | some (_, types) => set { t with types }
        | none => fail cause span) s t := by
  cases left : s.types.addField a name c with
  | none => exact agree_fail
  | some x =>
    cases right : t.types.addField b name d with
    | none => exact agree_of_not_right fun _ _ => not_passes_fail
    | some y =>
      intro _ _ _ _ passed passed'
      have left_mem := passed.last_mem
      have right_mem := passed'.last_mem
      cases passed.yields
      cases passed'.yields
      exact ⟨inStep_addField h owner type left right left_mem right_mem, trivial⟩

theorem agree_addStructField (h : w.InStep s t) {c d : TypeId}
    (owner : w.toRenumbering.types a b) (type : w.toRenumbering.types c d) (field : DeclaredName) :
    w.Agree (fun _ _ _ => True) (addStructField a c field) (addStructField b d field) s t := by
  unfold addStructField
  simp only [fail_bind]
  refine agree_unless fun _ _ => agree_get (agree_unless fun _ _ => ?_)
  exact agree_addField h owner type

/-- Steps for each of a list of names. -/
theorem agree_forM {α : Type} {f g : α → Action PUnit} (names : List α)
    (each : ∀ name s t, w.InStep s t → w.Agree (fun _ _ _ => True) (f name) (g name) s t)
    (h : w.InStep s t) : w.Agree (fun _ _ _ => True) (names.forM f) (names.forM g) s t := by
  induction names generalizing s t with
  | nil => exact agree_pure h trivial
  | cons name names ih => exact agree_bind (each name s t h) fun _ _ _ _ _ step _ => ih step

theorem anyPointer_self (w : Twins) : w.toRenumbering.types .anyPointer .anyPointer :=
  w.builtin _ (by decide)

theorem inStep_withSelf (h : w.InStep s t) (owner : w.toRenumbering.types a b)
    (left_mem : withSelf a s ∈ w.left.sessions) (right_mem : withSelf b t ∈ w.right.sessions) :
    w.InStep (withSelf a s) (withSelf b t) := by
  have added := rel_addField h owner (anyPointer_self w) selfName
  unfold withSelf at left_mem right_mem ⊢
  cases hs : s.types.addField a selfName .anyPointer <;>
    cases ht : t.types.addField b selfName .anyPointer <;> rw [hs, ht] at added <;>
    cases added <;> rw [hs] at left_mem <;> rw [ht] at right_mem
  · exact h
  · exact inStep_addField h owner (anyPointer_self w) hs ht left_mem right_mem

theorem agree_addInterface (h : w.InStep s t) :
    w.Agree (fun _ => w.toRenumbering.types) addInterface addInterface s t := by
  unfold addInterface
  refine agree_bind (agree_addType h (.interface .nil)) fun a s' b t' _ step same => ?_
  refine agree_bind (P := fun _ _ _ => True) ?_ fun _ _ _ _ _ step _ => agree_pure step same.1
  intro _ _ _ _ left right
  have left_mem := left.last_mem
  have right_mem := right.last_mem
  cases left.yields
  cases right.yields
  exact ⟨inStep_withSelf step same.1 left_mem right_mem, trivial⟩

/-! ### Signatures -/

theorem agree_methodSignature_bind {α β : Type} {P : Session → α → β → Prop}
    (h : w.InStep s t) {f : Signature → Action α} {g : Signature → Action β}
    (next : ∀ start start', w.SameSignature w.final start start' →
      w.Agree P (f start) (g start') s t) :
    w.Agree P (methodSignature >>= f) (methodSignature >>= g) s t := by
  unfold methodSignature
  rw [bind_assoc, bind_assoc]
  refine agree_get ?_
  rw [pure_bind, pure_bind]
  refine next _ _ ?_
  have added := Renumbering.rel_addParameter? selfName (h.size? (anyPointer_self w))
    (.empty : w.SameSignature w.final _ _) (anyPointer_self w)
    (.none : Option.Rel _ none none)
  generalize s.types.addParameter? .empty selfName .anyPointer none = x at added ⊢
  generalize t.types.addParameter? .empty selfName .anyPointer none = y at added ⊢
  cases added with
  | none => exact .empty
  | some same => exact same

theorem agree_addMethod (h : w.InStep s t) (owner : w.toRenumbering.types a b) {name : String}
    {f g : Signature} (same : w.SameSignature w.final f g) {span : Span} :
    w.Agree (fun _ _ _ => True) (addMethod a name f span) (addMethod b name g span) s t := by
  unfold addMethod
  refine agree_get ?_
  rw [h.size? owner]
  split
  · exact agree_fail
  · rename_i offset _
    have method : w.SameSignature w.final { f with isMethod := true, offsetFromSelf := offset }
        { g with isMethod := true, offsetFromSelf := offset } :=
      { same with isMethod := rfl, offsetFromSelf := rfl }
    refine agree_bind (agree_addType h (.function method)) fun _ _ _ _ _ step type => ?_
    exact agree_get (agree_addField step owner type.1)

theorem agree_addParameter (h : w.InStep s t) {f g : Signature} {v u : Option Constant}
    (type : w.toRenumbering.types a b) (default : Option.Rel (w.SameValue w.final a) v u)
    (same : w.SameSignature w.final f g) (parameter : DeclaredName) :
    w.Agree (fun _ => w.SameSignature w.final) (addParameter a v f parameter)
      (addParameter b u g parameter) s t := by
  unfold addParameter
  simp only [fail_bind]
  refine agree_unless fun _ _ => agree_get ?_
  have added := Renumbering.rel_addParameter? parameter.name (h.size? type) same type default
  generalize s.types.addParameter? f parameter.name a v = x at added ⊢
  generalize t.types.addParameter? g parameter.name b u = y at added ⊢
  cases added with
  | none => exact agree_fail
  | some same => exact agree_pure h same

theorem agree_addParameters (h : w.InStep s t) {f g : Signature} {v u : Option Constant}
    (type : w.toRenumbering.types a b) (default : Option.Rel (w.SameValue w.final a) v u)
    (same : w.SameSignature w.final f g) (parameters : List DeclaredName) :
    w.Agree (fun _ => w.SameSignature w.final) (parameters.foldlM (addParameter a v) f)
      (parameters.foldlM (addParameter b u) g) s t := by
  induction parameters generalizing f g s t with
  | nil => exact agree_pure h same
  | cons p parameters ih =>
    rw [List.foldlM_cons, List.foldlM_cons]
    exact agree_bind (agree_addParameter h type default same p) fun _ _ _ _ _ step same =>
      ih step same

theorem agree_defaultValue (h : w.InStep s t) {names defaults : Nat}
    (type : w.toRenumbering.types a b) (stream : Stream) :
    w.Agree (fun _ => SameRest (Option.Rel (w.SameValue w.final a)))
      (defaultValue names a defaults stream) (defaultValue names b defaults stream) s t := by
  unfold defaultValue
  simp only [fail_bind]
  split
  · refine agree_unless fun _ _ => ?_
    refine agree_bind (agree_constantExpression h _) fun r s' r' t' _ step same => ?_
    obtain ⟨⟨v, c⟩, rest, le⟩ := r
    obtain ⟨⟨u, d⟩, rest', le'⟩ := r'
    obtain ⟨rfl, same⟩ := same
    refine agree_get (agree_unless fun _ _ => ?_)
    have same := sameConstant_widen step type same
    refine agree_checkCompatible_bind fun compatible => ?_
    exact agree_pure step
      ⟨rfl, .some (sameValue_of_compatible step compatible same.kind same.value)⟩
  · exact agree_unless fun _ _ => agree_pure h ⟨rfl, .none⟩

theorem agree_addResult (h : w.InStep s t) {f g : Signature} (same : w.SameSignature w.final f g)
    (type : w.toRenumbering.types a b) {span : Span} :
    w.Agree (fun _ => w.SameSignature w.final) (addResult f a span) (addResult g b span) s t := by
  have same : w.SameSignature w.final { f with results := [a] } { g with results := [b] } :=
    { same with results := .cons type .nil }
  unfold addResult
  refine agree_get ?_
  rw [h.isStructured type]
  split
  · exact agree_pure h same
  · refine agree_bind (agree_addType h (.pointer type)) fun p s' q t' _ step pointer => ?_
    refine agree_get ?_
    have added := Renumbering.rel_addParameter? resultName (step.size? pointer.1) same
      pointer.1 (.none : Option.Rel (w.SameValue w.final p) none none)
    generalize s'.types.addParameter? { f with results := [a] } resultName p none = x at added ⊢
    generalize t'.types.addParameter? { g with results := [b] } resultName q none = y at added ⊢
    cases added with
    | none => exact agree_fail
    | some same => exact agree_pure step same

/-! ### Types -/

/-- The same names, and types that stand for each other. -/
structure SameNames (w : Twins) (x y : List DeclaredName × TypeId) : Prop where
  names : x.1 = y.1
  type : w.toRenumbering.types x.2 y.2

/-- The same parameters, of which as many have default values. -/
structure SameListed (w : Twins) (x y : Signature × Nat) : Prop where
  signature : w.SameSignature w.final x.1 y.1
  defaults : x.2 = y.2

mutual

theorem agree_typeExpression {s t : Session} (h : w.InStep s t) (stream : Stream) :
    w.Agree (fun _ => SamePast w.toRenumbering.types) (typeExpression stream)
      (typeExpression stream) s t := by
  rw [typeExpression]
  split
  · exact agree_namedType h stream
  · exact agree_pointerType h stream
  · exact agree_arrayType h stream
  · exact agree_textType h stream
  · exact agree_structType h stream
  · exact agree_interfaceType h stream
  · exact agree_functionType h stream
  · exact agree_fail
termination_by 5 * stream.size + 1

theorem agree_pointerType {s t : Session} (h : w.InStep s t) (stream : Stream) :
    w.Agree (fun _ => SamePast w.toRenumbering.types) (pointerType stream)
      (pointerType stream) s t := by
  rw [pointerType]
  refine agree_eat_bind fun past => ?_
  obtain ⟨⟨⟩, s₁, h₁⟩ := past
  have hlt := h₁.2
  refine agree_bind (agree_pointerTarget h s₁) fun past _ past' _ _ step same => ?_
  obtain ⟨a, rest, lt⟩ := past
  obtain ⟨b, rest', lt'⟩ := past'
  obtain ⟨rfl, same⟩ := same
  exact agree_bind (agree_addType step (.pointer same)) fun _ _ _ _ _ step same =>
    agree_pure step ⟨rfl, same.1⟩
termination_by 5 * stream.size

theorem agree_pointerTarget {s t : Session} (h : w.InStep s t) (stream : Stream) :
    w.Agree (fun _ => SamePast w.toRenumbering.types) (pointerTarget stream)
      (pointerTarget stream) s t := by
  rw [pointerTarget]
  split
  · rename_i named
    exact agree_namedTarget h named
  · exact agree_typeExpression h stream
termination_by 5 * stream.size + 2

theorem agree_arrayType {s t : Session} (h : w.InStep s t) (stream : Stream) :
    w.Agree (fun _ => SamePast w.toRenumbering.types) (arrayType stream)
      (arrayType stream) s t := by
  rw [arrayType]
  refine agree_eat_bind fun past => ?_
  obtain ⟨⟨⟩, s₁, h₁⟩ := past
  refine agree_bind (agree_arrayLength h s₁) fun r _ r' _ _ step same => ?_
  obtain ⟨n, s₂, h₂⟩ := r
  obtain ⟨_, _, _⟩ := r'
  obtain ⟨rfl, rfl⟩ := same
  refine agree_eat_bind fun past => ?_
  obtain ⟨⟨⟩, s₃, h₃⟩ := past
  have hlt := ((h₃.of_within h₂).trans h₁).2
  refine agree_bind (agree_typeExpression step s₃) fun past _ past' _ _ step same => ?_
  obtain ⟨a, rest, lt⟩ := past
  obtain ⟨b, rest', lt'⟩ := past'
  obtain ⟨rfl, same⟩ := same
  refine agree_bind (agree_addType step (.array same n)) fun _ _ _ _ _ step same => ?_
  simp only [fail_bind]
  exact agree_get (agree_unless fun _ _ => agree_pure step ⟨rfl, same.1⟩)
termination_by 5 * stream.size

theorem agree_structType {s t : Session} (h : w.InStep s t) (stream : Stream) :
    w.Agree (fun _ => SamePast w.toRenumbering.types) (structType stream)
      (structType stream) s t := by
  rw [structType]
  refine agree_eat_bind fun past => ?_
  obtain ⟨⟨⟩, s₁, h₁⟩ := past
  refine agree_eat_bind fun past => ?_
  obtain ⟨⟨⟩, s₂, h₂⟩ := past
  have hlt := (h₂.trans h₁).2
  refine agree_bind (agree_addType h (.struct .nil)) fun a _ b _ _ step owner => ?_
  refine agree_bind (agree_structFields step owner.1 s₂) fun r _ r' _ _ step same => ?_
  obtain ⟨⟨⟩, s₃, h₃⟩ := r
  obtain ⟨⟨⟩, _, _⟩ := r'
  obtain ⟨rfl, _⟩ := same
  exact agree_eat_bind fun past => agree_pure step ⟨rfl, owner.1⟩
termination_by 5 * stream.size

theorem agree_structFields {s t : Session} {a b : TypeId} (h : w.InStep s t)
    (owner : w.toRenumbering.types a b) (stream : Stream) :
    w.Agree (fun _ => SameKept) (structFields a stream) (structFields b stream) s t := by
  rw [structFields, structFields]
  split
  · exact agree_pure h ⟨rfl, trivial⟩
  refine agree_bind (agree_typedNames h stream) fun past _ past' _ _ step same => ?_
  obtain ⟨⟨names, c⟩, s₁, h₁⟩ := past
  obtain ⟨⟨_, d⟩, _, _⟩ := past'
  obtain ⟨rfl, rfl, type⟩ := same
  have hlt := h₁.2
  refine agree_bind (agree_forM names (fun field s t h => agree_addStructField h owner type field)
    step) fun _ _ _ _ _ step _ => ?_
  refine agree_separator_bind fun rest => ?_
  obtain ⟨⟨⟩, s₂, h₂⟩ := rest
  have hlt := (h₂.behind h₁).2
  refine agree_bind (agree_structFields step owner s₂) fun r _ r' _ _ step same => ?_
  obtain ⟨⟨⟩, s₃, h₃⟩ := r
  obtain ⟨⟨⟩, _, _⟩ := r'
  obtain ⟨rfl, _⟩ := same
  exact agree_pure step ⟨rfl, trivial⟩
termination_by 5 * stream.size + 3

theorem agree_interfaceType {s t : Session} (h : w.InStep s t) (stream : Stream) :
    w.Agree (fun _ => SamePast w.toRenumbering.types) (interfaceType stream)
      (interfaceType stream) s t := by
  rw [interfaceType]
  refine agree_eat_bind fun past => ?_
  obtain ⟨⟨⟩, s₁, h₁⟩ := past
  refine agree_eat_bind fun past => ?_
  obtain ⟨⟨⟩, s₂, h₂⟩ := past
  have hlt := (h₂.trans h₁).2
  refine agree_bind (agree_addInterface h) fun a _ b _ _ step owner => ?_
  refine agree_bind (agree_interfaceMethods step owner s₂) fun r _ r' _ _ step same => ?_
  obtain ⟨⟨⟩, s₃, h₃⟩ := r
  obtain ⟨⟨⟩, _, _⟩ := r'
  obtain ⟨rfl, _⟩ := same
  exact agree_eat_bind fun past => agree_pure step ⟨rfl, owner⟩
termination_by 5 * stream.size

theorem agree_interfaceMethods {s t : Session} {a b : TypeId} (h : w.InStep s t)
    (owner : w.toRenumbering.types a b) (stream : Stream) :
    w.Agree (fun _ => SameKept) (interfaceMethods a stream) (interfaceMethods b stream) s t := by
  rw [interfaceMethods, interfaceMethods]
  split
  · exact agree_pure h ⟨rfl, trivial⟩
  · rename_i name s₁ h₁ _
    have hlt := h₁.2
    simp only [fail_bind]
    refine agree_get (agree_unless fun _ _ => ?_)
    refine agree_methodSignature_bind h fun start start' same => ?_
    refine agree_bind (agree_signature h same s₁) fun past _ past' _ _ step same => ?_
    obtain ⟨f, s₂, h₂⟩ := past
    obtain ⟨g, _, _⟩ := past'
    obtain ⟨rfl, same⟩ := same
    refine agree_bind (agree_addMethod step owner same) fun _ _ _ _ _ step _ => ?_
    refine agree_separator_bind fun rest => ?_
    obtain ⟨⟨⟩, s₃, h₃⟩ := rest
    have hlt := ((h₃.behind h₂).trans h₁).2
    refine agree_bind (agree_interfaceMethods step owner s₃) fun r _ r' _ _ step same => ?_
    obtain ⟨⟨⟩, s₄, h₄⟩ := r
    obtain ⟨⟨⟩, _, _⟩ := r'
    obtain ⟨rfl, _⟩ := same
    exact agree_pure step ⟨rfl, trivial⟩
termination_by 5 * stream.size

theorem agree_functionType {s t : Session} (h : w.InStep s t) (stream : Stream) :
    w.Agree (fun _ => SamePast w.toRenumbering.types) (functionType stream)
      (functionType stream) s t := by
  rw [functionType]
  refine agree_eat_bind fun past => ?_
  obtain ⟨⟨⟩, s₁, h₁⟩ := past
  have hlt := h₁.2
  refine agree_bind (agree_signature h .empty s₁) fun past _ past' _ _ step same => ?_
  obtain ⟨f, s₂, h₂⟩ := past
  obtain ⟨g, _, _⟩ := past'
  obtain ⟨rfl, same⟩ := same
  exact agree_bind (agree_addType step (.function same)) fun _ _ _ _ _ step same =>
    agree_pure step ⟨rfl, same.1⟩
termination_by 5 * stream.size

theorem agree_typedNames {s t : Session} {capacity : Nat} (h : w.InStep s t) (stream : Stream) :
    w.Agree (fun _ => SamePast (SameNames w)) (typedNames capacity stream)
      (typedNames capacity stream) s t := by
  rw [typedNames]
  refine agree_ofExcept_bind fun past => ?_
  obtain ⟨names, s₁, h₁⟩ := past
  refine agree_eat_bind fun past => ?_
  obtain ⟨⟨⟩, s₂, h₂⟩ := past
  have hlt := (h₂.trans h₁).2
  refine agree_bind (agree_typeExpression h s₂) fun past _ past' _ _ step same => ?_
  obtain ⟨a, s₃, h₃⟩ := past
  obtain ⟨b, _, _⟩ := past'
  obtain ⟨rfl, same⟩ := same
  exact agree_pure step ⟨rfl, rfl, same⟩
termination_by 5 * stream.size + 2

theorem agree_signature {s t : Session} {f g : Signature} (h : w.InStep s t)
    (same : w.SameSignature w.final f g) (stream : Stream) :
    w.Agree (fun _ => SamePast (w.SameSignature w.final)) (signature f stream)
      (signature g stream) s t := by
  rw [signature, signature]
  refine agree_eat_bind fun past => ?_
  obtain ⟨⟨⟩, s₁, h₁⟩ := past
  have hlt := h₁.2
  refine agree_bind (agree_optionalParameters h same s₁) fun r _ r' _ _ step listed => ?_
  obtain ⟨⟨f, n⟩, s₂, h₂⟩ := r
  obtain ⟨⟨g, _⟩, _, _⟩ := r'
  obtain ⟨rfl, same, rfl⟩ := listed
  refine agree_eat_bind fun past => ?_
  obtain ⟨⟨⟩, s₃, h₃⟩ := past
  have h₃ := (h₃.of_within h₂).trans h₁
  have same : w.SameSignature w.final { f with defaults := n } { g with defaults := n } :=
    { same with defaults := rfl }
  dsimp only
  split
  · rename_i colon found
    simp only [found]
    obtain ⟨⟨⟩, s₄, h₄⟩ := colon
    have hlt := (h₄.trans h₃).2
    refine agree_bind (agree_typeExpression step s₄) fun past _ past' _ _ step type => ?_
    obtain ⟨a, s₅, h₅⟩ := past
    obtain ⟨b, _, _⟩ := past'
    obtain ⟨rfl, type⟩ := type
    exact agree_bind (agree_addResult step same type) fun _ _ _ _ _ step same =>
      agree_pure step ⟨rfl, same⟩
  · rename_i missing
    simp only [missing]
    exact agree_bind (agree_addResult step same (w.builtin .void (by decide)))
      fun _ _ _ _ _ step same => agree_pure step ⟨rfl, same⟩
termination_by 5 * stream.size

theorem agree_optionalParameters {s t : Session} {f g : Signature} (h : w.InStep s t)
    (same : w.SameSignature w.final f g) (stream : Stream) :
    w.Agree (fun _ => SameRest (SameListed w)) (optionalParameters f stream)
      (optionalParameters g stream) s t := by
  rw [optionalParameters, optionalParameters]
  split
  · refine agree_bind (agree_parameterGroups h same 0 stream) fun past _ past' _ _ step same => ?_
    obtain ⟨f, s₂, h₂⟩ := past
    obtain ⟨g, _, _⟩ := past'
    obtain ⟨rfl, same⟩ := same
    exact agree_pure step ⟨rfl, same⟩
  · exact agree_pure h ⟨rfl, same, rfl⟩
termination_by 5 * stream.size + 4

theorem agree_parameterGroups {s t : Session} {f g : Signature} (h : w.InStep s t)
    (same : w.SameSignature w.final f g) (defaults : Nat) (stream : Stream) :
    w.Agree (fun _ => SamePast (SameListed w)) (parameterGroups f defaults stream)
      (parameterGroups g defaults stream) s t := by
  rw [parameterGroups, parameterGroups]
  refine agree_bind (agree_typedNames h stream) fun past _ past' _ _ step names => ?_
  obtain ⟨⟨names, a⟩, s₁, h₁⟩ := past
  obtain ⟨⟨_, b⟩, _, _⟩ := past'
  obtain ⟨rfl, rfl, type⟩ := names
  refine agree_bind (agree_defaultValue step type s₁) fun r _ r' _ _ step value => ?_
  obtain ⟨v, s₂, h₂⟩ := r
  obtain ⟨u, _, _⟩ := r'
  obtain ⟨rfl, value⟩ := value
  have given : v.isSome = u.isSome := by cases value <;> rfl
  refine agree_bind (agree_addParameters step type value same names) fun f _ g _ _ step same => ?_
  dsimp only
  rw [given]
  split
  · rename_i comma _
    obtain ⟨⟨⟩, s₃, h₃⟩ := comma
    have hlt := ((h₃.of_within h₂).trans h₁).2
    refine agree_bind (agree_parameterGroups step same _ s₃) fun past _ past' _ _ step same => ?_
    obtain ⟨f, s₄, h₄⟩ := past
    obtain ⟨g, _, _⟩ := past'
    obtain ⟨rfl, same⟩ := same
    exact agree_pure step ⟨rfl, same⟩
  · exact agree_pure step ⟨rfl, same, rfl⟩
termination_by 5 * stream.size + 3

end

/-! ### Receivers -/

/-- Types that stand for each other, and the same signature. -/
structure SameReceiver (w : Twins) (x y : TypeId × Signature) : Prop where
  base : w.toRenumbering.types x.1 y.1
  signature : w.SameSignature w.final x.2 y.2

theorem agree_receiver (h : w.InStep s t) (stream : Stream) :
    w.Agree (fun _ => SamePast (SameReceiver w)) (receiver stream) (receiver stream) s t := by
  unfold receiver
  refine agree_eat_bind fun past => ?_
  obtain ⟨⟨⟩, s₁, h₁⟩ := past
  refine agree_eatName_bind fun past => ?_
  obtain ⟨name, s₂, h₂⟩ := past
  refine agree_eat_bind fun past => ?_
  obtain ⟨⟨⟩, s₃, h₃⟩ := past
  refine agree_bind (agree_typeExpression h s₃) fun past s' past' t' _ step type => ?_
  obtain ⟨a, s₄, h₄⟩ := past
  obtain ⟨b, _, _⟩ := past'
  obtain ⟨rfl, type⟩ := type
  refine agree_get ?_
  have bases : Option.Rel w.toRenumbering.types
      ((s'.types.pointerBase? a).filter s'.types.isStructured)
      ((t'.types.pointerBase? b).filter t'.types.isStructured) := by
    have same := step.kinds a b type
    unfold TypeTable.pointerBase?
    generalize s'.types.kind a = k at same ⊢
    generalize t'.types.kind b = l at same ⊢
    cases same with
    | pointer base =>
      rw [Option.filter_some, Option.filter_some, step.isStructured base]
      split
      · exact .some base
      · exact .none
    | _ => exact .none
  dsimp only
  generalize (s'.types.pointerBase? a).filter s'.types.isStructured = x at bases ⊢
  generalize (t'.types.pointerBase? b).filter t'.types.isStructured = y at bases ⊢
  cases bases with
  | none => exact agree_fail
  | some base =>
    refine agree_eat_bind fun past => agree_pure step ⟨rfl, base, ?_⟩
    have started : w.SameSignature w.final { Signature.empty with isMethod := true }
        { Signature.empty with isMethod := true } :=
      ⟨.nil, rfl, rfl, rfl, .nil, rfl⟩
    have added := Renumbering.rel_addParameter? name (step.size? type) started type
      (.none : Option.Rel (w.SameValue w.final a) none none)
    generalize s'.types.addParameter? _ name a none = x at added ⊢
    generalize t'.types.addParameter? _ name b none = y at added ⊢
    cases added with
    | none => exact started
    | some same => exact same

end Action

end FrontEnd
