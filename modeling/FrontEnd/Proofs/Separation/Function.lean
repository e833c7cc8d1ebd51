import FrontEnd.Proofs.Separation.Statement
import FrontEnd.Proofs.Function.Body

/-!
Functions agree, and with them all declarations of a module. The address of a function is that of
the next instruction; it is renumbered because the function adds one at least.
-/

namespace FrontEnd

open Session

namespace Action

variable {setup : Setup} {w : Twins} {s t : Session} {a b : TypeId} {stream : Stream}
  {f g : Signature}

/-! ### Bodies -/

theorem size_of_prepareEntry {i : Ident} {signature : Signature} {v : Unit}
    (h : (prepareEntry i signature).Yields setup s v t) :
    ∃ code : Code, code.size = s.code.size ∧ t = { s with code } := by
  unfold prepareEntry at h
  rw [yields_read, yields_get] at h
  split at h
  · unfold defineEntry at h
    simp only [fail_bind] at h
    split at h
    · cases h
    · rw [yields_get] at h
      split at h
      · exact absurd h not_yields_failInternal
      · rename_i code patched
        cases h
        obtain ⟨_, rfl⟩ := patch?_eq_some patched
        exact ⟨_, show Array.size _ = _ from Array.size_setIfInBounds, rfl⟩
  · obtain ⟨_, rfl⟩ := yields_pure.1 h
    exact ⟨_, rfl, rfl⟩

theorem agree_prepareEntry (h : w.InStep s t) {i j : Ident} :
    w.Agree (fun _ _ _ => True) (prepareEntry i f) (prepareEntry j g) s t := by
  intro _ s' _ t' left right
  have left_mem := left.last_mem
  have right_mem := right.last_mem
  obtain ⟨c, hc, rfl⟩ := size_of_prepareEntry left.yields
  obtain ⟨d, hd, rfl⟩ := size_of_prepareEntry right.yields
  exact ⟨inStep_code (n := 0) h left_mem right_mem hc hd, trivial⟩

theorem agree_parameters (h : w.InStep s t) {ps qs : List Parameter} {span : Span}
    (same : List.Forall₂ (w.SameParameter w.final) ps qs) :
    w.Agree (fun _ _ _ => True)
      (ps.forM fun p => discard (declareVariable p.name false p.type span))
      (qs.forM fun q => discard (declareVariable q.name false q.type span)) s t := by
  induction same generalizing s t with
  | nil => exact agree_pure h trivial
  | @cons p q ps qs hpq _ ih =>
    refine agree_bind (P := fun _ _ _ => True) ?_ fun _ _ _ _ _ step _ => ih step
    dsimp only
    rw [hpq.name]
    exact agree_bind (agree_declareVariable h hpq.type) fun _ _ _ _ _ step _ =>
      agree_pure step trivial

theorem agree_functionBlock (h : w.InStep s t) (same : w.SameSignature w.final f g) {span : Span}
    (stream : Stream) :
    w.Agree (fun _ => SameShorter) (functionBlock f span stream) (functionBlock g span stream)
      s t := by
  unfold functionBlock
  exact agree_bind (agree_parameters h same.parameters) fun _ _ _ _ _ step _ =>
    agree_blockBody step stream

theorem agree_functionBody (h : w.InStep s t) {i j : IdentId} {x y : Ident}
    (hij : w.toRenumbering.idents i j) (span : x.span = y.span)
    (same : w.SameSignature w.final f g) (stream : Stream) :
    w.Agree (fun _ => SameShorter) (functionBody i x f stream) (functionBody j y g stream) s t := by
  unfold functionBody
  rw [span]
  refine agree_bind (agree_prepareEntry h) fun _ _ _ _ _ step _ => agree_get ?_
  refine agree_bind (agree_place step) fun _ _ _ _ _ step _ => ?_
  refine agree_bind (agree_enter step (.some hij)) fun _ _ _ _ _ step _ => ?_
  refine agree_bind (agree_functionBlock step same stream) fun _ _ _ _ _ step rest => ?_
  refine agree_emit_bind step fun _ _ _ _ step => ?_
  refine agree_bind (agree_leave step) fun _ _ _ _ _ step _ => ?_
  exact agree_bind (agree_place step) fun _ _ _ _ _ step _ => agree_pure step rest

/-- A function adds the instruction that leaves it. -/
theorem code_of_functionBody {p : Passage} {i : IdentId} {x : Ident} {rest : Shorter stream}
    (h : p.Passes (functionBody i x f stream) s rest t) : s.code.size < t.code.size := by
  unfold functionBody at h
  obtain ⟨_, u₁, prepared, h⟩ := passes_bind h
  obtain ⟨_, u₂, placed, h⟩ := passes_bind (passes_get.1 h)
  obtain ⟨_, u₃, entered, h⟩ := passes_bind h
  obtain ⟨_, u₄, read, h⟩ := passes_bind h
  obtain ⟨_, u₅, emitted, h⟩ := passes_bind h
  have before : s.code.size ≤ u₄.code.size :=
    (Passage.Passes.grows prepared).code.trans ((Passage.Passes.grows placed).code.trans
      ((Passage.Passes.grows entered).code.trans (Passage.Passes.grows read).code))
  have after : u₅.code.size ≤ t.code.size := (Passage.Passes.grows h).code
  cases emitted.yields
  have added : (u₄.code.emit (.leave f.parametersSize)).size = u₄.code.size + 1 :=
    Array.size_push _
  exact Nat.lt_of_lt_of_le (Nat.lt_succ_of_le before) (added.symm.trans_le after)

/-! ### Heads -/

theorem agree_optionalReceiver (h : w.InStep s t) (stream : Stream) :
    w.Agree (fun _ => SameRest fun x y => Option.Rel w.toRenumbering.types x.1 y.1 ∧
        w.SameSignature w.final x.2 y.2)
      (optionalReceiver stream) (optionalReceiver stream) s t := by
  unfold optionalReceiver
  split
  · refine agree_bind (agree_receiver h stream) fun past _ past' _ _ step same => ?_
    obtain ⟨⟨a, f⟩, s₁, h₁⟩ := past
    obtain ⟨⟨b, g⟩, _, _⟩ := past'
    obtain ⟨rfl, base, same⟩ := same
    exact agree_pure step ⟨rfl, .some base, same⟩
  · exact agree_pure h ⟨rfl, .none, .empty⟩

theorem agree_functionName_bind {α β : Type} {P : Session → α → β → Prop} {r r' : Option TypeId}
    {f : Past stream String → Action α} {g : Past stream String → Action β}
    (h : ∀ past, w.Agree P (f past) (g past) s t) :
    w.Agree P (functionName r stream >>= f) (functionName r' stream >>= g) s t := by
  intro _ _ _ _ left right
  obtain ⟨past, known, left⟩ := passes_functionName_bind left
  obtain ⟨past', known', right⟩ := passes_functionName_bind right
  cases known.symm.trans known'
  exact h past _ _ _ _ left right

/-- What is known of two functions that stand for each other. -/
structure SameFunction (w : Twins) (x y : IdentId × Ident) : Prop where
  id : w.toRenumbering.idents x.1 y.1
  span : x.2.span = y.2.span

theorem agree_declareFunction (h : w.InStep s t) {name : String} {exported hasBody : Bool}
    {r r' : Option TypeId} {span : Span} (receiver : Option.Rel w.toRenumbering.types r r')
    (same : w.SameSignature w.final f g) (entry : w.addresses s.code.size t.code.size) :
    w.Agree (fun _ => SameFunction w) (declareFunction name exported r f hasBody span)
      (declareFunction name exported r' g hasBody span) s t := by
  unfold declareFunction
  intro _ _ _ _ left right
  obtain ⟨a, u, added, left⟩ := passes_bind left
  obtain ⟨b, u', added', right⟩ := passes_bind right
  obtain ⟨step, type, _⟩ := agree_addType h (.function same) _ _ _ _ added added'
  obtain ⟨rfl, rfl⟩ := yields_addType added.yields
  obtain ⟨rfl, rfl⟩ := yields_addType added'.yields
  refine agree_get (agree_get (agree_bind (Q := fun _ => SameFunction w)
    (agree_declare step ?_) ?_)) _ _ _ _ left right
  · exact ⟨rfl, rfl, rfl, type, .function entry, step.module, step.current, receiver⟩
  · exact fun i _ j _ _ step id => agree_pure step ⟨id, rfl⟩

/-- The next instructions have addresses that stand for each other, if there are any. -/
theorem sameAddress (h : w.InStep s t) {s' t' : Session} (left : s' ∈ w.left.sessions)
    (right : t' ∈ w.right.sessions) (more : s.code.size < s'.code.size)
    (more' : t.code.size < t'.code.size) : w.addresses s.code.size t.code.size := by
  have more := Nat.lt_of_lt_of_le more (Passage.grows_last left).code
  have more' := Nat.lt_of_lt_of_le more' (Passage.grows_last right).code
  obtain ⟨n, hs, ht⟩ := h.code
  rw [hs] at more ⊢
  rw [ht] at more' ⊢
  exact w.newAddress n more more'

/-- A function adds an instruction at least. -/
theorem code_of_function {outer : Stream} {p : Passage} {name : String} {exported hasBody : Bool}
    {r : Option TypeId} {span : Span} {behind : stream.Behind outer} {rest : Shorter outer}
    (h : p.Passes (do
      let (id, ident) ← declareFunction name exported r f hasBody span
      if hasBody then
        return (← functionBody id ident f stream).after behind
      else
        let _ ← emit .nop
        return ⟨(), stream, behind⟩) s rest t) : s.code.size < t.code.size := by
  obtain ⟨⟨i, x⟩, u, declared, h⟩ := passes_bind h
  obtain ⟨_, _, rfl⟩ := yields_declareFunction declared.yields
  cases hasBody with
  | true =>
    obtain ⟨_, v, read, done⟩ := passes_bind h
    obtain ⟨_, rfl⟩ := passes_pure done
    have more := code_of_functionBody (p := p) read
    exact more
  | false =>
    obtain ⟨_, v, emitted, done⟩ := passes_bind h
    obtain ⟨_, rfl⟩ := passes_pure done
    cases emitted.yields
    exact Nat.lt_of_lt_of_eq (Nat.lt_succ_self _) (Array.size_push _).symm

theorem agree_function (h : w.InStep s t) {outer : Stream} {name : String}
    {exported hasBody : Bool} {r r' : Option TypeId} {span : Span} {behind : stream.Behind outer}
    (receiver : Option.Rel w.toRenumbering.types r r') (same : w.SameSignature w.final f g) :
    w.Agree (fun _ (r r' : Shorter outer) => SameShorter r r')
      (do
        let (id, ident) ← declareFunction name exported r f hasBody span
        if hasBody then
          return (← functionBody id ident f stream).after behind
        else
          let _ ← emit .nop
          return ⟨(), stream, behind⟩)
      (do
        let (id, ident) ← declareFunction name exported r' g hasBody span
        if hasBody then
          return (← functionBody id ident g stream).after behind
        else
          let _ ← emit .nop
          return ⟨(), stream, behind⟩) s t := by
  intro v _ u _ left right
  have entry := sameAddress h left.last_mem right.last_mem (code_of_function left)
    (code_of_function right)
  refine agree_bind (Q := fun _ => SameShorter) (agree_declareFunction h receiver same entry)
    (fun x _ y _ _ step new => ?_) _ _ _ _ left right
  obtain ⟨i, x⟩ := x
  obtain ⟨j, y⟩ := y
  dsimp only
  split
  · refine agree_bind (agree_functionBody step new.id new.span same stream) ?_
    exact fun _ _ _ _ _ step same => agree_pure step ⟨same.stream, trivial⟩
  · exact agree_emit_bind step fun _ _ _ _ step => agree_pure step ⟨rfl, trivial⟩

theorem agreesOn_functionDeclaration : AgreesOn w functionDeclaration := by
  intro s t stream h
  unfold functionDeclaration
  simp only [fail_bind]
  refine agree_get (agree_unless fun _ _ => agree_eat_bind fun past => ?_)
  refine agree_bind (agree_optionalReceiver h _) fun r _ r' _ _ step same => ?_
  obtain ⟨⟨receiver, f⟩, s₂, h₂⟩ := r
  obtain ⟨⟨receiver', g⟩, _, _⟩ := r'
  obtain ⟨rfl, receivers, same⟩ := same
  refine agree_functionName_bind fun past => ?_
  refine agree_bind (agree_signature step same _) fun past s' past' t' _ step same => ?_
  obtain ⟨f, s₅, h₅⟩ := past
  obtain ⟨g, _, _⟩ := past'
  obtain ⟨rfl, same⟩ := same
  exact agree_function step receivers same

/-! ### Modules -/

theorem agree_declaration (h : w.InStep s t) (stream : Stream) :
    w.Agree (fun _ => SameKept) (declaration stream) (declaration stream) s t := by
  unfold declaration
  split
  · exact agree_kept (agreesOn_typeDeclaration s t stream h)
  · exact agree_kept (agreesOn_constantDeclaration s t stream h)
  · exact agree_kept (agreesOn_variableDeclaration s t stream h)
  · exact agree_kept (agreesOn_functionDeclaration s t stream h)
  · exact agree_kept (agreesOn_shortDeclaration s t stream h)
  · refine agree_get ?_
    rw [h.atModuleScope]
    split
    · exact agree_pure h ⟨rfl, trivial⟩
    · exact agree_fail

/-- Sessions in step stay in step while the same declarations are read. -/
theorem agree_declarations {s t : Session} (h : w.InStep s t) (stream : Stream) :
    w.Agree (fun _ => SameKept) (declarations stream) (declarations stream) s t := by
  rw [declarations]
  refine agree_bind (agree_declaration h stream) fun r _ r' _ _ step same => ?_
  obtain ⟨⟨⟩, s₁, h₁⟩ := r
  obtain ⟨⟨⟩, _, _⟩ := r'
  obtain ⟨rfl, _⟩ := same
  dsimp only
  split
  · exact agree_pure step ⟨rfl, trivial⟩
  · rename_i semicolon _
    obtain ⟨⟨⟩, s₂, h₂⟩ := semicolon
    have hlt := (h₂.of_within h₁).2
    refine agree_bind (agree_declarations step s₂) fun r _ r' _ _ step same => ?_
    obtain ⟨⟨⟩, s₃, h₃⟩ := r
    obtain ⟨⟨⟩, _, _⟩ := r'
    obtain ⟨rfl, _⟩ := same
    exact agree_pure step ⟨rfl, trivial⟩
termination_by stream.size

end Action

end FrontEnd
