import FrontEnd.Proofs.Expression.Effect
import FrontEnd.Proofs.Statement
import FrontEnd.Proofs.Initializer
import FrontEnd.Proofs.Visibility
import FrontEnd.Proofs.Structures

/-!
What the code of expressions and assignments does to the stack. The code of an expression pops
nothing that was on the stack before and leaves one value there; what it loads lies at the address
of a variable of that type. The code of an assignment leaves the stack as it was.
-/

namespace FrontEnd

namespace Action

open Session

variable {setup : Setup} {U : Set TypeId} {s t : Session} {v : TypedValue} {stream : Stream}

/-! ### Expressions -/

/-- What a reference stands for is in view. -/
theorem inView_of_resolve {r : Reference} {x : IdentId × Ident}
    (h : (resolve r).Yields setup s x t) : s.idents.get? x.1 = some x.2 ∧ s.InView x.2 ∧ t = s := by
  cases r with
  | plain name span =>
    obtain ⟨found, hi, rfl⟩ := yields_resolve_plain.1 h
    obtain ⟨i, hi', visible⟩ := visible_of_find? found
    cases hi.symm.trans hi'
    refine ⟨hi, ?_, rfl⟩
    rcases visible.scope with ⟨module, block⟩ | ⟨module, _⟩
    · exact .inr (.inl ⟨module, List.mem_append.2 (block.imp_right List.mem_singleton.2)⟩)
    · exact .inl module
  | member file span name =>
    obtain ⟨module, _, _, _, imported, _, offered, rfl⟩ := yields_resolve_member.1 h
    obtain ⟨i, hi, key⟩ := IdentTable.findNamed?_eq_some offered.found
    cases offered.ident.symm.trans hi
    simp only [Ident.key, Prod.mk.injEq] at key
    obtain ⟨rfl, block, _⟩ := key
    exact ⟨offered.ident, .inr (.inr ⟨imported, block⟩), rfl⟩

theorem adds_pushVariable (place : Storage) {type : TypeId} (has : s.HasVariable place type)
    (h : (pushVariable place.address type).Yields setup s v t) : s.Adds t t.ReadsVariables := by
  cases h
  refine ⟨[place.address, .load type], (Code.appends_emit _ _).trans (Code.appends_emit _ _), ?_⟩
  exact .load has .nil

theorem adds_identValue {id : IdentId} {i : Ident} {span : Span}
    (hi : s.idents.get? id = some i) (view : s.InView i)
    (h : (identValue .runtime i span).Yields setup s v t) : s.Adds t t.ReadsVariables := by
  unfold identValue at h
  split at h
  · obtain ⟨_, rfl⟩ := yields_pushConstant_runtime.1 h
    exact (adds_nil rfl .nil).emit nofun
  · obtain ⟨_, rfl⟩ := yields_pushConstant_runtime.1 h
    exact (adds_nil rfl .nil).emit nofun
  · exact absurd h not_yields_fail
  · rename_i slot hk hp _
    refine adds_pushVariable (.global slot) ⟨id, i, hi, view, ?_, rfl⟩ h
    rw [address?, hk, hp]
    rfl
  · rename_i offset hk hp _
    refine adds_pushVariable (.local offset) ⟨id, i, hi, view, ?_, rfl⟩ h
    rw [address?, hk, hp]
    rfl
  · exact absurd h not_yields_fail
  · exact absurd h not_yields_failInternal

theorem adds_widen (s : Session) (target source : TypeId) {u : Session}
    (h : u.Adds s s.ReadsVariables) :
    u.Adds { s with code := s.code.widen s.types target source } s.ReadsVariables := by
  unfold Code.widen
  split
  · obtain ⟨more, appends, reads⟩ := h.emit (i := .convert source target) nofun
    exact ⟨more, appends, reads.imp fun _ _ has => has⟩
  · exact h

theorem adds_evaluate {tree : Expression} (h : s.Ready U) (hp : tree.IsProper)
    (hy : (tree.evaluate .runtime).Yields setup s v t) : s.Adds t t.ReadsVariables := by
  induction tree generalizing s t v with
  | literal value =>
    rw [Expression.evaluate] at hy
    obtain ⟨type, u, read, hy⟩ := yields_bind.1 hy
    obtain ⟨⟨types, rfl⟩, _⟩ := yields_literalType read
    obtain ⟨_, rfl⟩ := yields_pushConstant_runtime.1 hy
    exact (adds_nil (t := { s with types }) rfl .nil).emit (by rintro _ ⟨⟩)
  | name reference =>
    rw [Expression.evaluate] at hy
    obtain ⟨⟨id, i⟩, u, resolved, named⟩ := yields_bind.1 hy
    obtain ⟨hi, view, rfl⟩ := inView_of_resolve resolved
    exact adds_identValue hi view named
  | group inner unclosed? ih =>
    rw [Expression.evaluate] at hy
    obtain ⟨w, u, read, hy⟩ := yields_bind.1 hy
    cases unclosed? with
    | some fault => exact absurd hy not_yields_failAt
    | none =>
      obtain ⟨_, rfl⟩ := yields_pure.1 hy
      exact ih h hp.1 read
  | unary op span operand ih =>
    rw [Expression.evaluate] at hy
    obtain ⟨w, u, read, hy⟩ := yields_bind.1 hy
    obtain ⟨_, _, rfl⟩ := yields_applyUnary_runtime.1 hy
    exact (ih h hp read).emit (by rintro _ ⟨⟩)
  | binary op span left right ihl ihr =>
    rw [Expression.evaluate] at hy
    obtain ⟨a, u, read, hy⟩ := yields_bind.1 hy
    obtain ⟨b, u', read', hy⟩ := yields_bind.1 hy
    have first : (left.evaluate .runtime).Meets setup {.code} U _ s := meets_evaluate h hp.1
    obtain ⟨leads, _⟩ := first.of_run_ok read
    have second : (right.evaluate .runtime).Meets setup {.code} U _ u :=
      meets_evaluate leads.ready hp.2
    obtain ⟨leads', _⟩ := second.of_run_ok read'
    obtain ⟨_, _, rfl⟩ := yields_applyBinary_runtime.1 hy
    have both : s.Adds u' u'.ReadsVariables :=
      (ihl h hp.1 read).append (ihr leads.ready hp.2 read') fun _ _ reads reads' =>
        (reads.evolves leads'.evolves (by rintro ⟨⟩) (by rintro ⟨⟩)).append reads'
    obtain ⟨more, appends, reads⟩ := adds_widen u' a.type b.type both
    refine Adds.emit (t := { u' with code := u'.code.widen u'.types a.type b.type })
      ⟨more, appends, reads.imp fun _ _ has => has⟩ (by rintro _ ⟨⟩)
  | missing fault =>
    rw [Expression.evaluate] at hy
    exact absurd hy not_yields_failAt

/-- The value of a tree is on the stack, also when more variables have been declared. -/
theorem adds_pushes {tree : Expression} {may : Set Part} {u : Session} (h : s.Ready U)
    (hp : tree.IsProper) (hy : (tree.evaluate .runtime).Yields setup s v t) (e : t.Evolves may u)
    (scopes : .scopes ∉ may) (files : .files ∉ may) : s.Adds t (u.Pushes · v.type) := by
  obtain ⟨code, appends, pushes⟩ := (pushed_evaluate h hp hy).emits
  obtain ⟨_, appends', pushes', reads⟩ :=
    Adds.and (P := fun more => more = code) ⟨code, appends, rfl⟩ (adds_evaluate h hp hy)
  refine ⟨_, appends', pushes_of_readsVariables ?_ (reads.evolves e scopes files)⟩
  rw [pushes']
  exact pushes u e.fixes

theorem adds_expression {rest : Rest stream TypedValue} (h : s.Ready U)
    (hy : (expression .runtime stream).Yields setup s rest t) :
    s.Adds t fun code => (∀ i ∈ code, i.Evaluates) ∧ t.Pushes code rest.value.type := by
  unfold expression at hy
  rw [yields_get] at hy
  obtain ⟨v, u, evaluated, done⟩ := yields_bind.1 hy
  obtain ⟨rfl, rfl⟩ := yields_pure.1 done
  have hp := Expression.isProper_read s.isModule stream
  obtain ⟨code, appends, pushes⟩ := (pushed_evaluate h hp evaluated).emits
  refine Adds.and ⟨code, appends, fun i hi => ?_⟩
    (adds_pushes h hp evaluated (.refl ∅ t) nofun nofun)
  exact (pushes t (.refl t)).evaluates hi

/-! ### Assignments -/

theorem pushes_widened (target : TypeId) {code : List Instruction} (h : s.Pushes code v.type) :
    ∃ more, s.Pushes (code ++ more) (v.widened s.types target).type ∧
      ∀ c : Code, c.Appends (c.widen s.types target v.type) more := by
  unfold TypedValue.widened Code.widen
  by_cases hw : s.types.widens target v.type = true
  · refine ⟨[.convert v.type target], ?_, fun c => ?_⟩
    · intro below
      obtain ⟨read?, executes⟩ := h below
      rw [if_pos hw]
      have converted : s.Acts below (.convert v.type target) (.value v.type read? :: below)
          (.value target none :: below) :=
        .evaluates (.convert hw) (List.suffix_refl _) nofun
      exact ⟨none, executes.append (.cons converted (.nil _))⟩
    · rw [if_pos hw]
      exact Code.appends_emit c _
  · refine ⟨[], ?_, fun c => ?_⟩
    · rw [if_neg hw, List.append_nil]
      exact h
    · rw [if_neg hw]
      exact ⟨rfl, (List.append_nil _).symm⟩

theorem evolves_widen (s : Session) (target source : TypeId) :
    s.Evolves {.code} { s with code := s.code.widen s.types target source } := by
  unfold Code.widen
  split
  · exact s.evolves_emit rfl
  · exact .refl _ s

theorem adds_store {target : TypeId} {rest : Kept stream} (h : s.Ready U)
    (hy : (store target stream).Yields setup s rest t) : s.Adds t fun code => ∃ value source,
      code = value ++ [.store target] ∧ t.Pushes value source ∧
        t.types.compatible target source = true := by
  obtain ⟨w, u, evaluated, compatible, _, rfl⟩ := yields_store.1 hy
  have e := (evolves_widen u target w.type).trans (evolves_emit _ (i := .store target) rfl)
  obtain ⟨code, appends, pushes⟩ :=
    adds_pushes h (Expression.isProper_read _ stream) evaluated e nofun nofun
  obtain ⟨more, pushes', appends'⟩ := pushes_widened target pushes
  exact ⟨_, (appends.trans (appends' u.code)).trans (Code.appends_emit _ _), code ++ more, _, rfl,
    pushes', compatible⟩

theorem evolves_store {target : TypeId} {rest : Kept stream} (h : s.Ready U)
    (hy : (store target stream).Yields setup s rest t) : s.Evolves {.code} t := by
  obtain ⟨w, u, evaluated, _, _, rfl⟩ := yields_store.1 hy
  have read : ((s.treeAt stream).evaluate .runtime).Meets setup {.code} U _ s :=
    meets_evaluate h (Expression.isProper_read _ stream)
  obtain ⟨leads, _⟩ := read.of_run_ok evaluated
  exact leads.evolves.trans ((evolves_widen u target w.type).trans (evolves_emit _ rfl))

/-- The address of a variable is pushed and a value stored there. -/
theorem adds_givesValue (place : Storage) {target : TypeId} {rest : Kept stream}
    (h : Session.Ready U { s with code := s.code.emit place.address })
    (has : s.HasVariable place target)
    (hy : (store target stream).Yields setup { s with code := s.code.emit place.address } rest t) :
    s.Adds t t.GivesValue := by
  have has : t.HasVariable place target :=
    HasVariable.evolves (s := { s with code := s.code.emit place.address }) has
      (evolves_store h hy) nofun nofun
  refine (s.adds_emit place.address).append (adds_store h hy) fun code more he stored => ?_
  obtain ⟨value, source, rfl, pushes, compatible⟩ := stored
  rw [he, ← List.append_assoc]
  exact .assign has pushes compatible

theorem adds_assignment {rest : Shorter stream} (h : s.Ready U)
    (hy : (assignment stream).Yields setup s rest t) : s.Adds t t.GivesValue := by
  unfold assignment at hy
  obtain ⟨⟨⟨id, i⟩, s₁, h₁⟩, _, referred, assigned⟩ := yields_bind.1 hy
  obtain ⟨r, _, _, resolved⟩ := yields_reference.1 referred
  obtain ⟨hi, view, rfl⟩ := inView_of_resolve resolved
  dsimp only at hi view assigned
  split at assigned
  · exact absurd assigned not_yields_fail
  · rename_i address ha
    obtain ⟨valid, plain⟩ := address_valid h.toValid hi ha
    obtain ⟨_, place, rfl⟩ := address_of_address? ha
    obtain ⟨_, _, ⟨⟩, assigned⟩ := yields_bind.1 assigned
    obtain ⟨_, _, equals, assigned⟩ := yields_bind.1 assigned
    obtain ⟨_, rfl⟩ := yields_eat.1 equals
    obtain ⟨_, _, stored, done⟩ := yields_bind.1 assigned
    obtain ⟨_, rfl⟩ := yields_pure.1 done
    have pushed : (emit place.address).Meets setup {.code} U _ _ := meets_emit h valid plain
    obtain ⟨leads, _⟩ := pushed.of_run_ok rfl
    exact adds_givesValue _ leads.ready ⟨id, i, hi, view, ha, rfl⟩ stored

/-! ### Declarations -/

theorem current_mem_scopes (b : Blocks) : b.current ∈ b.scopes := by
  unfold Blocks.current Blocks.scopes
  split
  · rename_i hs
    rw [hs]
    exact List.mem_append_left _ List.mem_cons_self
  · exact List.mem_append_right _ (List.mem_singleton.2 rfl)

/-- A variable is declared with the room that it has been given. -/
theorem of_yields_declareVariable {name : String} {exported : Bool} {type : TypeId} {span : Span}
    {id : IdentId} {payload : Payload}
    (h : (declareVariable name exported type span).Yields setup s (id, payload) t) :
    ∃ u, (allocate name type span).Yields setup s payload u ∧ id = ⟨u.idents.size⟩ ∧
      t = { u with
        idents := ⟨u.idents.idents.push (u.ident name .var exported type payload span)⟩ } := by
  obtain ⟨payload', u, allocated, h⟩ := yields_bind.1 h
  obtain ⟨_, _, ⟨⟩, h⟩ := yields_bind.1 h
  obtain ⟨id', w, declared, h⟩ := yields_bind.1 h
  obtain ⟨he, rfl⟩ := yields_pure.1 h
  cases he
  obtain ⟨_, table, added, rfl⟩ := yields_declare declared
  obtain ⟨rfl, rfl, _⟩ := IdentTable.insert?_eq_some added
  exact ⟨u, allocated, rfl, rfl⟩

/-- A new variable is in view. -/
theorem hasVariable_declareVariable {name : String} {exported : Bool} {type : TypeId} {span : Span}
    {id : IdentId} {offset : Int64}
    (h : (declareVariable name exported type span).Yields setup s (id, .local offset) t) :
    t.HasVariable (.local offset) type := by
  obtain ⟨u, _, rfl, rfl⟩ := of_yields_declareVariable h
  refine ⟨_, _, (IdentTable.get?_push ..).trans (if_pos rfl), ?_, rfl, rfl⟩
  exact .inr (.inl ⟨rfl, current_mem_scopes u.blocks⟩)

/-- Inside a function a new variable lies in the frame. -/
theorem yields_allocate_inside {name : String} {type : TypeId} {span : Span} {payload : Payload}
    (hin : s.At true) (h : (allocate name type span).Yields setup s payload t) :
    ∃ size offset blocks, s.types.size? type = some size ∧
      s.blocks.allocate? size = some (offset, blocks) ∧ payload = .local offset ∧
      t = { s with blocks } := by
  unfold allocate at h
  have outer : ¬ s.blocks.atModuleScope = true := by
    rw [show s.blocks.atModuleScope = false from hin]
    nofun
  rw [yields_get, if_neg outer] at h
  split at h
  · rename_i offset blocks allocated
    cases h
    obtain ⟨size, known, allocated⟩ := Option.bind_eq_some_iff.1 allocated
    exact ⟨size, offset, blocks, known, allocated, rfl, rfl⟩
  · exact absurd h not_yields_fail

theorem adds_variableItem {rest : Shorter stream} (h : s.Ready ∅) (hin : s.At true)
    (hk : s.Knows stream) (hy : (variableItem stream).Yields setup s rest t) :
    ∃ past u, (typedNames maxVariables stream).Yields setup s past u ∧
      (past.stream.isAt .assign = false → t.code = s.code) ∧
      (past.stream.isAt .assign = true → s.Adds t t.GivesValue) := by
  unfold variableItem at hy
  obtain ⟨⟨⟨names, type⟩, s₁, h₁⟩, u, read, hy⟩ := yields_bind.1 hy
  obtain ⟨leads, hn⟩ := (meets_typedNames h hk).of_run_ok read
  refine ⟨_, u, read, ?_⟩
  obtain ⟨payload, w, declared, hy⟩ := yields_bind.1 hy
  have hin := hin.evolves (leads.evolves.mono (idents_subset_itemParts true))
  obtain ⟨leads', stores, _, code⟩ :=
    (meets_declareVariables leads.ready hin hn.solid hn.nonempty hn.known).of_run_ok declared
  have code : w.code = s.code := code.trans (leads.evolves.keeps.code (by rintro ⟨⟩))
  dsimp only at hy ⊢
  split at hy
  · rename_i none
    obtain ⟨_, rfl⟩ := yields_pure.1 hy
    refine ⟨fun _ => code, fun equals => ?_⟩
    obtain ⟨_, some⟩ := Stream.skip?_of_isAt equals (by rintro ⟨⟩)
    cases none.symm.trans some
  · rename_i sign equals
    refine ⟨fun none => ?_, fun _ => ?_⟩
    · rw [(Stream.isAt_of_skip? equals).1] at none
      cases none
    simp only [fail_bind] at hy
    split at hy
    · exact absurd hy not_yields_fail
    rename_i single
    obtain ⟨d, rfl⟩ := List.length_eq_one_iff.1 (not_not.1 single)
    obtain ⟨⟨id, _⟩, _, placed, done⟩ := yields_bind.1 declared
    obtain ⟨rfl, rfl⟩ := yields_pure.1 done
    obtain ⟨_, allocated, _⟩ := of_yields_declareVariable placed
    obtain ⟨_, offset, _, _, _, rfl, _⟩ := yields_allocate_inside hin allocated
    obtain ⟨_, _, ⟨⟩, hy⟩ := yields_bind.1 hy
    obtain ⟨_, _, stored, done⟩ := yields_bind.1 hy
    obtain ⟨_, rfl⟩ := yields_pure.1 done
    have address : (emit (.localAddress offset)).Meets setup {.code} ∅ _ w :=
      meets_emitTypes leads'.ready (by rintro _ ⟨⟩) rfl rfl
    obtain ⟨leads'', _⟩ := address.of_run_ok rfl
    have has := hasVariable_declareVariable placed
    obtain ⟨more, appends, gives⟩ := adds_givesValue (.local offset) leads''.ready has stored
    exact ⟨more, code ▸ appends, gives⟩

/-- Inside a function the value of a variable is computed by code. -/
theorem yields_inferredValue_inside {r : Rest stream TypedValue} (hin : s.At true)
    (h : (inferredValue stream).Yields setup s r t) :
    ∃ type constant?, r.value = ⟨type, none⟩ ∧
      ((s.treeAt stream).evaluate .runtime).Yields setup s ⟨type, constant?⟩ t := by
  unfold inferredValue at h
  have outer : ¬ s.blocks.atModuleScope = true := by
    rw [show s.blocks.atModuleScope = false from hin]
    nofun
  rw [yields_get, if_neg outer] at h
  obtain ⟨read, u, evaluated, h⟩ := yields_bind.1 h
  obtain ⟨rfl, rfl⟩ := yields_pure.1 h
  unfold expression at evaluated
  rw [yields_get] at evaluated
  obtain ⟨v, _, evaluated, done⟩ := yields_bind.1 evaluated
  obtain ⟨rfl, rfl⟩ := yields_pure.1 done
  exact ⟨v.type, v.constant?, rfl, evaluated⟩

theorem adds_declareInferred {declared : DeclaredName} {rest : Kept stream} (h : s.Ready ∅)
    (hin : s.At true) (hn : declared.name ∈ s.names.texts)
    (hy : (declareInferred declared stream).Yields setup s rest t) : s.Adds t t.GivesValue := by
  unfold declareInferred at hy
  simp only [fail_bind] at hy
  obtain ⟨⟨value, s', h'⟩, u, valued, hy⟩ := yields_bind.1 hy
  obtain ⟨type, constant?, hv, evaluated⟩ := yields_inferredValue_inside hin valued
  obtain ⟨leads, inferred, _⟩ := (meets_inferredValue h hin).of_run_ok valued
  obtain rfl : value = ⟨type, none⟩ := hv
  dsimp only at hy
  split at hy
  · obtain ⟨_, _, ⟨⟩, hy⟩ := yields_bind.1 hy
    exact absurd hy not_yields_fail
  obtain ⟨⟨id, payload⟩, v, placed, hy⟩ := yields_bind.1 hy
  obtain ⟨⟨⟩, w, stored, hy⟩ := yields_bind.1 hy
  obtain ⟨_, rfl⟩ := yields_pure.1 hy
  have hin := hin.evolves leads.evolves
  obtain ⟨leads', _, _, code⟩ := (meets_declareVariable leads.ready hin inferred.solid
    (leads.evolves.grows.names _ hn)).of_run_ok placed
  obtain ⟨_, allocated, _⟩ := of_yields_declareVariable placed
  obtain ⟨_, offset, _, _, _, rfl, _⟩ := yields_allocate_inside hin allocated
  have has := hasVariable_declareVariable placed
  cases stored
  have e := leads'.evolves.trans
    (((v.evolves_emit (i := .localAddress offset) rfl).trans
      (evolves_emit _ (i := .storeSwapped type) rfl)).mono code_subset_itemParts)
  have pushed := adds_pushes h (Expression.isProper_read _ stream) evaluated e
    (by simp [itemParts]) (by simp [itemParts])
  obtain ⟨more, appends, pushes⟩ := pushed
  refine ⟨more ++ [.localAddress offset, .storeSwapped type], ?_, ?_⟩
  · refine appends.trans ?_
    rw [← code]
    exact (Code.appends_emit _ _).trans (Code.appends_emit _ _)
  · exact @GivesValue.declare _ (.local offset) _ _ _ has pushes (TypeTable.compatible_refl ..)

theorem adds_shortDeclaration {rest : Shorter stream} (h : s.Ready ∅) (hin : s.At true)
    (hk : s.Knows stream) (hy : (shortDeclaration stream).Yields setup s rest t) :
    s.Adds t t.GivesValue := by
  unfold shortDeclaration at hy
  obtain ⟨⟨declared, s₁, h₁⟩, _, read, declares⟩ := yields_bind.1 hy
  obtain ⟨named, rfl⟩ := yields_ofExcept.1 read
  obtain ⟨_, _, sign, infers⟩ := yields_bind.1 declares
  obtain ⟨_, rfl⟩ := yields_eat.1 sign
  obtain ⟨_, _, stored, done⟩ := yields_bind.1 infers
  obtain ⟨_, rfl⟩ := yields_pure.1 done
  have known := reads_declaredName hk
  rw [named] at known
  exact adds_declareInferred h hin known stored

/-- A group of variables is declared item by item. -/
theorem declaresItems_variableDeclaration {rest : Shorter stream} (h : s.Ready ∅) (hin : s.At true)
    (hk : s.Knows stream) (hy : (variableDeclaration stream).Yields setup s rest t) :
    Relation.ReflTransGen DeclaresItem s t := by
  refine (of_passes_keywordGroup (I := fun stream s => s.Ready ∅ ∧ s.At true ∧ s.Knows stream)
    (fun s stream rest hI hr => ⟨hI.1, hI.2.1, hI.2.2.within hr⟩) ?_ (fun _ => .refl)
    (fun _ _ _ first second => first.trans second) ⟨h, hin, hk⟩ hy.passes).2
  intro stream s rest t ⟨h, hin, hk⟩ ⟨hy, _⟩
  obtain ⟨leads, _⟩ := (declares_variableItem stream s h hin hk).of_run_ok hy
  refine ⟨⟨leads.ready, hin.evolves leads.evolves, (hk.behind rest.lt).evolves leads.evolves⟩,
    .single ?_⟩
  obtain ⟨past, u, _, bare, initialized⟩ := adds_variableItem h hin hk hy
  cases equals : past.stream.isAt .assign with
  | false => exact .inl (bare equals)
  | true => exact .inr (adds_executes (initialized equals))

/-- Groups of items that change names and types only emit nothing. -/
theorem code_of_keywordGroup {keyword : Symbol} {item : (s : Stream) → Action (Shorter s)}
    (hitem : ∀ stream s, s.Ready ∅ → s.Knows stream →
      (item stream).Meets setup {.idents} ∅ (fun _ _ => True) s)
    {rest : Shorter stream} (h : s.Ready ∅) (hk : s.Knows stream)
    (hy : (keywordGroup keyword item stream).Yields setup s rest t) : t.code = s.code := by
  refine (of_passes_keywordGroup (I := fun stream s => s.Ready ∅ ∧ s.Knows stream)
    (R := fun s t => t.code = s.code) (fun s stream rest hI hr => ⟨hI.1, hI.2.within hr⟩) ?_
    (fun _ => rfl) (fun _ _ _ first second => second.trans first) ⟨h, hk⟩ hy.passes).2
  intro stream s rest t ⟨h, hk⟩ ⟨hy, _⟩
  obtain ⟨leads, _⟩ := (hitem stream s h hk).of_run_ok hy
  exact ⟨⟨leads.ready, (hk.behind rest.lt).evolves leads.evolves⟩, leads.evolves.keeps.code nofun⟩

theorem code_of_constantDeclaration {rest : Shorter stream} (h : s.Ready ∅) (hk : s.Knows stream)
    (hy : (constantDeclaration stream).Yields setup s rest t) : t.code = s.code :=
  code_of_keywordGroup (fun _ _ => meets_constantItem) h hk hy

theorem yields_checkForwards (h : checkForwards.Yields setup s () t) : t = s := by
  unfold checkForwards at h
  rw [yields_get] at h
  split at h
  · exact (yields_pure.1 h).2
  · split at h
    · exact absurd h not_yields_failInternal
    · cases h

theorem code_of_typeDeclaration {rest : Shorter stream} (h : s.Ready ∅) (hk : s.Knows stream)
    (hy : (typeDeclaration stream).Yields setup s rest t) : t.code = s.code := by
  unfold typeDeclaration at hy
  obtain ⟨past, u, declared, hy⟩ := yields_bind.1 hy
  have code := code_of_keywordGroup (fun _ _ => meets_typeItem) h hk declared
  split at hy
  · obtain ⟨⟨⟩, _, checked, done⟩ := yields_bind.1 hy
    obtain ⟨_, rfl⟩ := yields_pure.1 done
    rw [yields_checkForwards checked, code]
  · obtain ⟨_, rfl⟩ := yields_pure.1 hy
    exact code

end Action

/-- What the code does to the stack that is emitted for what stands at the front of `stream` inside
a function. -/
structure StackEffects (setup : Setup) (s : Session) (stream : Stream) : Prop where
  expression : ∀ rest t, (Action.expression .runtime stream).Yields setup s rest t →
    s.Adds t fun code => (∀ i ∈ code, i.Evaluates) ∧ t.Pushes code rest.value.type
  assignment : ∀ rest t, (Action.assignment stream).Yields setup s rest t →
    s.Adds t fun code => t.GivesValue code ∧ ∀ below, t.Executes below code below below
  shortDeclaration : ∀ rest t, (Action.shortDeclaration stream).Yields setup s rest t →
    s.Adds t fun code => t.GivesValue code ∧ ∀ below, t.Executes below code below below
  /-- Variables are initialized if an equals sign stands behind their type. -/
  variableItem : ∀ rest t, (Action.variableItem stream).Yields setup s rest t →
    ∃ past u, (Action.typedNames maxVariables stream).Yields setup s past u ∧
      (past.stream.isAt .assign = false → t.code = s.code) ∧
      (past.stream.isAt .assign = true → s.Adds t fun code =>
        t.GivesValue code ∧ ∀ below, t.Executes below code below below)
  variableDeclaration : ∀ rest t, (Action.variableDeclaration stream).Yields setup s rest t →
    Relation.ReflTransGen Session.DeclaresItem s t
  constantDeclaration : ∀ rest t, (Action.constantDeclaration stream).Yields setup s rest t →
    t.code = s.code
  typeDeclaration : ∀ rest t, (Action.typeDeclaration stream).Yields setup s rest t →
    t.code = s.code

/-- In a compilation every session in which no forward type waits for its identifier, and no type
has turned out to be too large, is ready to read on. Inside a function the code of an expression,
read from any session that is ready, pops nothing that was on the stack before and leaves one value
of its type there; each load in it acts on the address of a variable of that type, and each
conversion on an integer that becomes a real. The code of assignments and of initialized variables
leaves the stack as it was and ends by storing a value in a variable of a compatible type. Other
declarations emit nothing. -/
theorem history_stackEffects (setup : Setup) (root : String) :
    (∀ s ∈ history setup root, s.Bound → s.types.IsSized → s.Ready ∅) ∧
      ∀ s, s.Ready ∅ → s.InFunction → ∀ stream, s.Knows stream → StackEffects setup s stream := by
  constructor
  · intro s hs bound sized
    exact ⟨valid_of_mem_history hs, bound, (laidOut_of_mem_history hs).founded, sized⟩
  · intro s h hin stream hk
    exact
      { expression := fun _ _ => Action.adds_expression h
        assignment := fun _ _ hy => Session.adds_executes (Action.adds_assignment h hy)
        shortDeclaration := fun _ _ hy =>
          Session.adds_executes (Action.adds_shortDeclaration h hin.at_true hk hy)
        variableItem := fun _ _ hy => by
          obtain ⟨past, u, read, bare, initialized⟩ :=
            Action.adds_variableItem h hin.at_true hk hy
          exact ⟨past, u, read, bare, fun equals => Session.adds_executes (initialized equals)⟩
        variableDeclaration := fun _ _ =>
          Action.declaresItems_variableDeclaration h hin.at_true hk
        constantDeclaration := fun _ _ => Action.code_of_constantDeclaration h hk
        typeDeclaration := fun _ _ => Action.code_of_typeDeclaration h hk }

end FrontEnd
