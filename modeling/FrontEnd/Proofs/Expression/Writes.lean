import FrontEnd.Proofs.Expression.Stack
import FrontEnd.Proofs.Writes

/-!
What expressions write: the types of string literals, and in runtime mode instructions. A constant
expression leaves everything but the types of a session as it was, and these only gain string types.
-/

namespace FrontEnd

/-- One change that the evaluation of an expression makes. -/
inductive Session.EvaluationStep (mode : Mode) (s : Session) : Session → Prop
  | text (capacity : Int64) :
      EvaluationStep mode s { s with types := (s.types.add (.text capacity)).2 }
  | emit (runtime : mode = .runtime) (i : Instruction) (evaluates : i.Evaluates) :
      EvaluationStep mode s { s with code := s.code.emit i }

namespace Action

open Session

variable {setup : Setup} {mode : Mode} {s : Session} {stream : Stream}

theorem writes_literalType (value : Constant) :
    (literalType value).Writes setup (EvaluationStep mode) (fun _ _ => True) s := by
  cases value with
  | text value => exact ⟨.text _, trivial⟩
  | _ => trivial

theorem writes_pushConstant (value : Constant) (type : TypeId) :
    (pushConstant mode value type).Writes setup (EvaluationStep mode) (fun _ _ => True) s := by
  cases mode with
  | constant => trivial
  | runtime => exact ⟨.emit rfl _ trivial, trivial⟩

theorem writes_identValue (i : Ident) (span : Span) :
    (identValue mode i span).Writes setup (EvaluationStep mode) (fun _ _ => True) s := by
  unfold identValue
  split
  · exact writes_pushConstant _ _
  · exact writes_pushConstant _ _
  · exact writes_fail
  · exact ⟨.emit rfl _ trivial, .emit rfl _ trivial, trivial⟩
  · exact ⟨.emit rfl _ trivial, .emit rfl _ trivial, trivial⟩
  · exact writes_fail
  · exact writes_failInternal

theorem writes_applyUnary (op : UnaryOperator) (operand : TypedValue) (span : Span) :
    (applyUnary mode op operand span).Writes setup (EvaluationStep mode) (fun _ _ => True) s := by
  unfold applyUnary checkUnary
  rw [bind_assoc, writes_get]
  split
  · exact writes_fail
  · cases mode with
    | constant =>
      show (foldUnary op operand span).Writes _ _ _ _
      unfold foldUnary
      split
      · exact writes_failInternal
      · split
        · trivial
        · exact writes_fail
    | runtime => exact ⟨.emit rfl _ trivial, trivial⟩

theorem writes_widen (target : TypeId) (value : TypedValue) :
    (widen mode target value).Writes setup (EvaluationStep mode) (fun _ _ => True) s := by
  unfold widen
  rw [writes_get]
  split
  · trivial
  · cases mode with
    | constant => trivial
    | runtime => exact ⟨.emit rfl _ trivial, trivial⟩

theorem writes_foldBinary (op : Operator) (left right : TypedValue) (span : Span) :
    (foldBinary op left right span).Writes setup (EvaluationStep mode) (fun _ _ => True) s := by
  unfold foldBinary
  split
  · split
    · trivial
    · exact writes_fail
  · exact writes_failInternal

theorem writes_applyBinary (op : Operator) (left right : TypedValue) (span : Span) :
    (applyBinary mode op left right span).Writes setup (EvaluationStep mode) (fun _ _ => True) s := by
  unfold applyBinary checkBinary
  refine (writes_widen left.type right).bind fun right t _ => ?_
  rw [bind_assoc]
  refine writes_checkCompatible ?_
  simp only [fail_bind]
  rw [bind_assoc, writes_get]
  split
  · exact writes_fail
  · split
    · exact writes_fail
    · cases mode with
      | constant => exact writes_foldBinary op left right span
      | runtime => exact ⟨.emit rfl _ trivial, trivial⟩

/-- A tree that has a value is whole. -/
theorem writes_evaluate (tree : Expression) :
    (tree.evaluate mode).Writes setup (EvaluationStep mode) (fun _ _ => tree.IsWhole) s := by
  induction tree generalizing s with
  | literal value =>
    rw [Expression.evaluate]
    refine (writes_literalType value).bind fun type t _ => ?_
    exact (writes_pushConstant value type).imp fun _ _ _ => trivial
  | name reference =>
    rw [Expression.evaluate]
    exact writes_resolve fun x whole => (writes_identValue x.2 _).imp fun _ _ _ => whole
  | group inner unclosed? ih =>
    rw [Expression.evaluate]
    refine ih.bind fun value t whole => ?_
    cases unclosed? with
    | some fault => exact writes_failAt
    | none => exact ⟨whole, rfl⟩
  | unary op span operand ih =>
    rw [Expression.evaluate]
    exact ih.bind fun value t whole => (writes_applyUnary op value span).imp fun _ _ _ => whole
  | binary op span left right ihl ihr =>
    rw [Expression.evaluate]
    refine ihl.bind fun a t first => ihr.bind fun b u second => ?_
    exact (writes_applyBinary op a b span).imp fun _ _ _ => ⟨first, second⟩
  | missing fault =>
    rw [Expression.evaluate]
    exact writes_failAt

/-- The words of an expression have been passed. -/
theorem writes_expression (mode : Mode) (stream : Stream) :
    (expression mode stream).Writes setup (EvaluationStep mode)
      (fun rest _ => Stream.PassesTerm Symbol.separators stream rest.stream) s := by
  unfold expression
  rw [writes_get]
  refine (writes_evaluate _).bind fun value t whole => ?_
  exact (Expression.stands_read s.isModule stream whole).passesTerm

theorem writes_constantExpression (stream : Stream) :
    (constantExpression stream).Writes setup (EvaluationStep .constant)
      (fun rest _ => Stream.PassesTerm Symbol.separators stream rest.stream) s := by
  unfold constantExpression
  refine (writes_expression .constant stream).bind fun rest t passed => ?_
  dsimp only
  split
  · exact passed
  · exact writes_failInternal

end Action

namespace Session

variable {s t u : Session}

/-- String types have been appended to the types of a session, and nothing else has changed. -/
def AppendsTexts (s t : Session) : Prop :=
  ∃ capacities : List Int64, t =
    { s with types := { s.types with
        kinds := s.types.kinds ++ (capacities.map TypeKind.text).toArray } }

namespace AppendsTexts

theorem refl (s : Session) : s.AppendsTexts s :=
  ⟨[], by rw [List.map_nil, Array.append_empty]⟩

theorem trans (h : s.AppendsTexts t) (h' : t.AppendsTexts u) : s.AppendsTexts u := by
  obtain ⟨capacities, rfl⟩ := h
  obtain ⟨more, rfl⟩ := h'
  exact ⟨capacities ++ more, by rw [List.map_append, ← List.append_toArray, Array.append_assoc]⟩

end AppendsTexts

theorem EvaluationStep.appendsTexts (h : s.EvaluationStep .constant t) : s.AppendsTexts t := by
  cases h with
  | text capacity => exact ⟨[capacity], by simp [TypeTable.add]⟩
  | emit runtime => cases runtime

end Session

end FrontEnd
