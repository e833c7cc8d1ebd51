import FrontEnd.Proofs.Separation.Declaration

/-!
Statements agree, and so do the blocks that they stand in.
-/

namespace FrontEnd

open Session

namespace Twins.InStep

variable {w : Twins} {s t : Session} {a b : TypeId}

theorem rel_signature? (h : w.InStep s t) (hab : w.toRenumbering.types a b) :
    Option.Rel (w.SameSignature w.final) (s.types.signature? a) (t.types.signature? b) := by
  have same := h.kinds a b hab
  unfold TypeTable.signature?
  generalize s.types.kind a = k at same ⊢
  generalize t.types.kind b = l at same ⊢
  cases same with
  | function signature => exact .some signature
  | _ => exact .none

end Twins.InStep

namespace Action

variable {w : Twins} {s t : Session} {a b : TypeId} {stream : Stream} {f g : Signature}

/-! ### Returning -/

theorem agree_enclosingSignature (h : w.InStep s t) :
    w.Agree (fun _ => w.SameSignature w.final) enclosingSignature enclosingSignature s t := by
  unfold enclosingSignature
  refine agree_get ?_
  have function := h.function?
  generalize s.blocks.function? = i at function ⊢
  generalize t.blocks.function? = j at function ⊢
  cases function with
  | none => exact agree_failInternal
  | @some i j hij =>
    have signatures : Option.Rel (w.SameSignature w.final)
        ((s.idents.get? i).bind fun ident => s.types.signature? ident.type)
        ((t.idents.get? j).bind fun ident => t.types.signature? ident.type) := by
      have same := h.ident i j hij
      generalize s.idents.get? i = x at same ⊢
      generalize t.idents.get? j = y at same ⊢
      cases same with
      | none => exact .none
      | some same => exact h.rel_signature? same.type
    dsimp only
    generalize (s.idents.get? i).bind _ = x at signatures ⊢
    generalize (t.idents.get? j).bind _ = y at signatures ⊢
    cases signatures with
    | none => exact agree_failInternal
    | some same => exact agree_pure h same

theorem rel_resultParameter? (same : w.SameSignature w.final f g) :
    Option.Rel (w.SameParameter w.final) (resultParameter? f) (resultParameter? g) := by
  have last := rel_getLast? same.parameters
  unfold resultParameter?
  generalize f.parameters.getLast? = x at last ⊢
  generalize g.parameters.getLast? = y at last ⊢
  cases last with
  | none => exact .none
  | some last =>
    rw [Option.filter_some, Option.filter_some, last.name]
    split
    · exact .some last
    · exact .none

theorem agree_returnedValue (h : w.InStep s t) (same : w.SameSignature w.final f g)
    (result : w.toRenumbering.types a b) (stream : Stream) :
    w.Agree (fun _ => SameKept) (returnedValue f a stream) (returnedValue g b stream) s t := by
  have hidden := rel_resultParameter? same
  unfold returnedValue
  generalize resultParameter? f = x at hidden ⊢
  generalize resultParameter? g = y at hidden ⊢
  cases hidden with
  | none => exact agree_runtimeValue h result stream
  | some hidden =>
    exact agree_emit_bind h fun _ _ _ _ step => agree_emit_bind step fun _ _ _ _ step =>
      agree_store step result stream

/-- The types of the results of functions stand for each other. -/
theorem rel_result (same : w.SameSignature w.final f g) :
    w.toRenumbering.types (f.result?.getD .void) (g.result?.getD .void) := by
  have results := same.results
  unfold Signature.result?
  generalize f.results = as at results ⊢
  generalize g.results = bs at results ⊢
  cases results with
  | nil => exact w.builtin _ (by decide)
  | cons first _ => exact first

theorem agree_optionalValue (h : w.InStep s t) (same : w.SameSignature w.final f g) (span : Span)
    (stream : Stream) :
    w.Agree (fun _ => SameKept) (optionalValue f span stream) (optionalValue g span stream) s t
    := by
  have result := rel_result same
  unfold optionalValue
  dsimp only
  split
  · split
    · exact agree_of_not_left fun _ _ => not_passes_misfit
    split
    · exact agree_of_not_right fun _ _ => not_passes_misfit
    exact agree_pure h ⟨rfl, trivial⟩
  · simp only [fail_bind]
    exact agree_unless fun _ _ => agree_returnedValue h same result stream

theorem agreesOn_returnStatement : AgreesOn w returnStatement := by
  intro s t stream h
  unfold returnStatement
  refine agree_eat_bind fun past => ?_
  refine agree_bind (agree_enclosingSignature h) fun f _ g _ _ step same => ?_
  refine agree_bind (agree_optionalValue step same stream.span _) fun r _ r' _ _ step rest => ?_
  obtain ⟨⟨⟩, s₂, h₂⟩ := r
  obtain ⟨⟨⟩, _, _⟩ := r'
  obtain ⟨rfl, _⟩ := rest
  exact agree_emit_bind step fun _ _ _ _ step => agree_pure step ⟨rfl, trivial⟩

/-! ### Statements and blocks -/

theorem agree_kept {action action' : Action (Shorter stream)}
    (h : w.Agree (fun _ => SameShorter) action action' s t) :
    w.Agree (fun _ => SameKept) (kept action) (kept action') s t := by
  unfold kept
  refine agree_bind h fun past _ past' _ _ step same => ?_
  exact agree_pure step ⟨same.stream, trivial⟩

mutual

theorem agree_statement {s t : Session} (h : w.InStep s t) (stream : Stream) :
    w.Agree (fun _ => SameKept) (statement stream) (statement stream) s t := by
  rw [statement]
  split
  · exact agree_pure h ⟨rfl, trivial⟩
  · exact agree_pure h ⟨rfl, trivial⟩
  · exact agree_kept (agreesOn_typeDeclaration s t stream h)
  · exact agree_kept (agreesOn_constantDeclaration s t stream h)
  · exact agree_kept (agreesOn_variableDeclaration s t stream h)
  · exact agree_fail
  · exact agree_kept (agree_block h stream)
  · exact agree_kept (agreesOn_returnStatement s t stream h)
  · split
    · exact agree_kept (agreesOn_shortDeclaration s t stream h)
    · exact agree_kept (agree_assignment h stream)
  · exact agree_fail
termination_by 4 * stream.size + 2

theorem agree_statements {s t : Session} (h : w.InStep s t) (stream : Stream) :
    w.Agree (fun _ => SameKept) (statements stream) (statements stream) s t := by
  rw [statements]
  refine agree_bind (agree_statement h stream) fun r _ r' _ _ step same => ?_
  obtain ⟨⟨⟩, s₁, h₁⟩ := r
  obtain ⟨⟨⟩, _, _⟩ := r'
  obtain ⟨rfl, _⟩ := same
  dsimp only
  split
  · exact agree_pure step ⟨rfl, trivial⟩
  · rename_i semicolon _
    obtain ⟨⟨⟩, s₂, h₂⟩ := semicolon
    have hlt := (h₂.of_within h₁).2
    refine agree_bind (agree_statements step s₂) fun r _ r' _ _ step same => ?_
    obtain ⟨⟨⟩, s₃, h₃⟩ := r
    obtain ⟨⟨⟩, _, _⟩ := r'
    obtain ⟨rfl, _⟩ := same
    exact agree_pure step ⟨rfl, trivial⟩
termination_by 4 * stream.size + 3

theorem agree_blockBody {s t : Session} (h : w.InStep s t) (stream : Stream) :
    w.Agree (fun _ => SameShorter) (blockBody stream) (blockBody stream) s t := by
  rw [blockBody]
  refine agree_eat_bind fun past => ?_
  obtain ⟨⟨⟩, s₁, h₁⟩ := past
  have hlt := h₁.2
  refine agree_bind (agree_statements h s₁) fun r _ r' _ _ step same => ?_
  obtain ⟨⟨⟩, s₂, h₂⟩ := r
  obtain ⟨⟨⟩, _, _⟩ := r'
  obtain ⟨rfl, _⟩ := same
  exact agree_eat_bind fun past => agree_pure step ⟨rfl, trivial⟩
termination_by 4 * stream.size

theorem agree_block {s t : Session} (h : w.InStep s t) (stream : Stream) :
    w.Agree (fun _ => SameShorter) (block stream) (block stream) s t := by
  rw [block]
  refine agree_bind (agree_enter h .none) fun _ _ _ _ _ step _ => ?_
  refine agree_bind (agree_blockBody step stream) fun _ _ _ _ _ step same => ?_
  exact agree_bind (agree_leave step) fun _ _ _ _ _ step _ => agree_pure step same
termination_by 4 * stream.size + 1

end

end Action

end FrontEnd
