import FrontEnd.Proofs.Expression.Writes

/-!
What type expressions write. They add types and names for forward types; everything else in a
session stays as it was. The words that they pass are closed in themselves.
-/

namespace FrontEnd

namespace Session

variable {s t u : Session}

/-- Nothing but types and identifiers has changed. -/
def Defines (s t : Session) : Prop :=
  ∃ types idents, t = { s with types, idents }

namespace Defines

theorem refl (s : Session) : s.Defines s := ⟨s.types, s.idents, rfl⟩

theorem trans (h : s.Defines t) (h' : t.Defines u) : s.Defines u := by
  obtain ⟨types, idents, rfl⟩ := h
  obtain ⟨types', idents', rfl⟩ := h'
  exact ⟨types', idents', rfl⟩

end Defines

theorem defines_types (s : Session) (types : TypeTable) : s.Defines { s with types } :=
  ⟨types, s.idents, rfl⟩

theorem defines_idents (s : Session) (idents : IdentTable) : s.Defines { s with idents } :=
  ⟨s.types, idents, rfl⟩

theorem EvaluationStep.defines (h : s.EvaluationStep .constant t) : s.Defines t := by
  cases h with
  | text capacity => exact s.defines_types _
  | emit runtime => cases runtime

end Session

namespace Action

open Session
open FrontEnd.Stream

variable {setup : Setup} {s : Session} {stream : Stream}

/-! ### Parts of type expressions -/

theorem defines_constantExpression (stream : Stream) :
    (constantExpression stream).Writes setup Defines
      (fun rest _ => PassesTerm Symbol.separators stream rest.stream) s :=
  (writes_constantExpression stream).mono (fun _ _ => EvaluationStep.defines) fun _ _ => id

theorem defines_length (negative : Cause) (stream : Stream) :
    (length negative stream).Writes setup Defines
      (fun rest _ => PassesTerm Symbol.separators stream rest.stream) s := by
  unfold length
  refine (defines_constantExpression stream).bind fun ⟨⟨value, type⟩, s', h⟩ t passed => ?_
  dsimp only
  rw [writes_get]
  simp only [fail_bind]
  split
  · exact writes_fail
  · split
    · split
      · exact passed
      · exact writes_fail
    · exact writes_fail

theorem defines_newType (kind : TypeKind) {α : Type} {f : TypeId → Action α}
    {Q : α → Session → Prop}
    (hf : (f ⟨s.types.size⟩).Writes setup Defines Q { s with types := (s.types.add kind).2 }) :
    (addType kind >>= f).Writes setup Defines Q s :=
  ⟨s.defines_types _, hf⟩

theorem defines_textType (stream : Stream) :
    (textType stream).Writes setup Defines
      (fun past _ => PassesTerm Symbol.separators stream past.stream) s := by
  unfold textType
  refine writes_eat fun first word => ?_
  have word : PassesTerm Symbol.separators stream first.stream := passesTerm_of_skip? word rfl rfl
  dsimp only
  split
  · rename_i bracket opened
    refine (defines_length _ _).bind fun rest t inside => ?_
    refine writes_eat fun last closed => defines_newType _ ?_
    exact word.trans (passesTerm_brackets _ rfl opened (t := rest.stream) inside.inside closed)
  · rw [writes_read]
    split
    · exact defines_newType _ word
    · exact writes_fail

theorem defines_arrayLength (stream : Stream) :
    (arrayLength stream).Writes setup Defines
      (fun rest _ => PassesTerm Symbol.separators stream rest.stream) s := by
  unfold arrayLength
  split
  · exact PassesTerm.refl _ stream
  · exact defines_length _ stream

theorem defines_namedType (stream : Stream) :
    (namedType stream).Writes setup Defines
      (fun past _ => PassesTerm Symbol.separators stream past.stream) s := by
  unfold namedType
  refine writes_typeReference fun past passed => ?_
  rw [writes_get]
  simp only [fail_bind]
  split
  · exact writes_fail
  · exact passed

theorem defines_declareType (name : String) (exported : Bool) (type : TypeId) (span : Span) :
    (declareType name exported type span).Writes setup Defines (fun _ _ => True) s :=
  (writes_declareType (fun idents => s.defines_idents idents)
    fun _ idents _ _ => ⟨_, idents, rfl⟩).imp fun _ _ _ => trivial

theorem defines_declareForward (name : String) (exported : Bool) (span : Span) :
    (declareForward name exported span).Writes setup Defines (fun _ _ => True) s := by
  unfold declareForward
  refine defines_newType _ ((defines_declareType _ _ _ _).bind fun ident t _ => ?_)
  exact ⟨t.defines_types _, trivial⟩

theorem defines_namedTarget {name : Past stream String} (named : stream.name? = some name) :
    (namedTarget stream name).Writes setup Defines
      (fun past _ => PassesTerm Symbol.separators stream past.stream) s := by
  unfold namedTarget isUndeclared
  rw [bind_assoc, writes_get]
  show Writes (if _ then _ else _) _ _ _ _
  split
  · refine (defines_declareForward _ _ _).bind fun type t _ => ?_
    exact (passesTerm_of_name? Symbol.separators named).trans (passesTerm_exportMark _ rfl)
  · exact writes_typeReference fun past passed => passed

theorem defines_addStructField (owner type : TypeId) (field : DeclaredName) :
    (addStructField owner type field).Writes setup Defines (fun _ _ => True) s := by
  unfold addStructField
  simp only [fail_bind]
  split
  · exact writes_fail
  · rw [writes_get]
    split
    · exact writes_fail
    · split
      · exact ⟨s.defines_types _, trivial⟩
      · exact writes_fail

theorem defines_addStructFields (owner type : TypeId) (fields : List DeclaredName) :
    (fields.forM (addStructField owner type)).Writes setup Defines (fun _ _ => True) s := by
  induction fields generalizing s with
  | nil => trivial
  | cons field fields ih => exact (defines_addStructField owner type field).bind fun _ _ _ => ih

theorem defines_addInterface :
    addInterface.Writes setup Defines (fun _ _ => True) s := by
  refine defines_newType _ ⟨?_, trivial⟩
  show Defines _ (withSelf _ _)
  unfold withSelf
  split
  · exact defines_types _ _
  · exact .refl _

theorem defines_addMethod (owner : TypeId) (name : String) (signature : Signature) (span : Span) :
    (addMethod owner name signature span).Writes setup Defines (fun _ _ => True) s := by
  unfold addMethod
  rw [writes_get]
  split
  · exact writes_fail
  · refine defines_newType _ ?_
    rw [writes_get]
    split
    · exact ⟨Session.defines_types _ _, trivial⟩
    · exact writes_fail

theorem defines_addParameter (type : TypeId) (default? : Option Constant) (signature : Signature)
    (parameter : DeclaredName) :
    (addParameter type default? signature parameter).Writes setup Defines (fun _ _ => True) s := by
  unfold addParameter
  simp only [fail_bind]
  split
  · exact writes_fail
  · rw [writes_get]
    split
    · trivial
    · exact writes_fail

theorem defines_addParameters (type : TypeId) (default? : Option Constant) (signature : Signature)
    (parameters : List DeclaredName) :
    (parameters.foldlM (addParameter type default?) signature).Writes setup Defines
      (fun _ _ => True) s := by
  induction parameters generalizing s signature with
  | nil => trivial
  | cons parameter parameters ih =>
    exact (defines_addParameter type default? signature parameter).bind fun _ _ _ => ih _

/-- The sign `=` and an expression, or nothing. -/
theorem defines_defaultValue (names : Nat) (type : TypeId) (defaults : Nat) (stream : Stream) :
    (defaultValue names type defaults stream).Writes setup Defines
      (fun rest _ => PassesTerm [] stream rest.stream) s := by
  unfold defaultValue
  simp only [fail_bind]
  split
  · rename_i s₁ h₁ sign
    split
    · exact writes_fail
    · refine (defines_constantExpression s₁).bind fun rest t passed => ?_
      obtain ⟨⟨value, source⟩, s₂, h₂⟩ := rest
      rw [writes_get]
      split
      · exact writes_fail
      · exact writes_checkCompatible ((passesTerm_of_skip? sign rfl rfl).trans passed.inside)
  · split
    · exact writes_fail
    · exact PassesTerm.refl [] stream

theorem defines_addResult (signature : Signature) (type : TypeId) (span : Span) :
    (addResult signature type span).Writes setup Defines (fun _ _ => True) s := by
  unfold addResult
  rw [writes_get]
  split
  · trivial
  · refine defines_newType _ ?_
    rw [writes_get]
    split
    · trivial
    · exact writes_fail

/-! ### Type expressions -/

mutual

theorem defines_typeExpression (stream : Stream) (s : Session) :
    (typeExpression stream).Writes setup Defines
      (fun past _ => PassesTerm Symbol.separators stream past.stream) s := by
  rw [typeExpression]
  split
  · exact defines_namedType stream
  · exact defines_pointerType stream s
  · exact defines_arrayType stream s
  · exact defines_textType stream
  · exact defines_structType stream s
  · exact defines_interfaceType stream s
  · exact defines_functionType stream s
  · exact writes_fail
termination_by 5 * stream.size + 1

theorem defines_pointerType (stream : Stream) (s : Session) :
    (pointerType stream).Writes setup Defines
      (fun past _ => PassesTerm Symbol.separators stream past.stream) s := by
  rw [pointerType]
  refine writes_eat fun first caret => ?_
  have shorter := first.lt.2
  refine (defines_pointerTarget first.stream s).bind fun past t passed => ?_
  exact defines_newType _ ((passesTerm_of_skip? caret rfl rfl).trans passed)
termination_by 5 * stream.size

theorem defines_pointerTarget (stream : Stream) (s : Session) :
    (pointerTarget stream).Writes setup Defines
      (fun past _ => PassesTerm Symbol.separators stream past.stream) s := by
  rw [pointerTarget]
  split
  · rename_i named
    exact defines_namedTarget named
  · exact defines_typeExpression stream s
termination_by 5 * stream.size + 2

theorem defines_arrayType (stream : Stream) (s : Session) :
    (arrayType stream).Writes setup Defines
      (fun past _ => PassesTerm Symbol.separators stream past.stream) s := by
  rw [arrayType]
  refine writes_eat fun first opened => ?_
  have shorter := first.lt.2
  refine (defines_arrayLength first.stream).bind fun rest t inside => ?_
  have within := rest.le.2
  refine writes_eat fun last closed => ?_
  have shorter' := last.lt.2
  refine (defines_typeExpression last.stream t).bind fun past u passed => ?_
  refine defines_newType _ ?_
  rw [writes_get]
  simp only [fail_bind]
  split
  · exact writes_fail
  · exact (passesTerm_brackets _ rfl opened inside.inside closed).trans passed
termination_by 5 * stream.size

theorem defines_structType (stream : Stream) (s : Session) :
    (structType stream).Writes setup Defines
      (fun past _ => PassesTerm Symbol.separators stream past.stream) s := by
  rw [structType]
  refine writes_eat fun first word => ?_
  have shorter := first.lt.2
  refine writes_eat fun second opened => ?_
  have shorter' := second.lt.2
  refine defines_newType _ ?_
  refine (defines_structFields _ second.stream _).bind fun rest t inside => ?_
  refine writes_eat fun last closed => ?_
  exact (passesTerm_of_skip? word rfl rfl).trans (passesTerm_brackets _ rfl opened inside closed)
termination_by 5 * stream.size

theorem defines_structFields (owner : TypeId) (stream : Stream) (s : Session) :
    (structFields owner stream).Writes setup Defines
      (fun rest _ => PassesTerm [] stream rest.stream) s := by
  rw [structFields]
  split
  · exact PassesTerm.refl [] stream
  · refine (defines_typedNames maxFields stream s).bind fun past t passed => ?_
    have shorter := past.lt.2
    refine (defines_addStructFields owner _ _).bind fun _ u _ => ?_
    refine writes_separator fun rest between => ?_
    have within := rest.le.2
    refine (defines_structFields owner rest.stream u).bind fun last v more => ?_
    exact passed.trans (between.trans more)
termination_by 5 * stream.size + 3

theorem defines_interfaceType (stream : Stream) (s : Session) :
    (interfaceType stream).Writes setup Defines
      (fun past _ => PassesTerm Symbol.separators stream past.stream) s := by
  rw [interfaceType]
  refine writes_eat fun first word => ?_
  have shorter := first.lt.2
  refine writes_eat fun second opened => ?_
  have shorter' := second.lt.2
  refine defines_addInterface.bind fun owner t _ => ?_
  refine (defines_interfaceMethods owner second.stream t).bind fun rest u inside => ?_
  refine writes_eat fun last closed => ?_
  exact (passesTerm_of_skip? word rfl rfl).trans (passesTerm_brackets _ rfl opened inside closed)
termination_by 5 * stream.size

theorem defines_interfaceMethods (owner : TypeId) (stream : Stream) (s : Session) :
    (interfaceMethods owner stream).Writes setup Defines
      (fun rest _ => PassesTerm [] stream rest.stream) s := by
  rw [interfaceMethods]
  split
  · exact PassesTerm.refl [] stream
  · rename_i name s₁ h₁ named
    have shorter := h₁.2
    rw [writes_get]
    simp only [fail_bind]
    split
    · exact writes_fail
    · rw [methodSignature, bind_assoc, writes_get]
      refine (defines_signature _ s₁ s).bind fun past t passed => ?_
      have shorter' := past.lt.2
      refine (defines_addMethod _ _ _ _).bind fun _ u _ => ?_
      refine writes_separator fun rest between => ?_
      have within : rest.stream.size ≤ past.stream.size := rest.le.2
      refine (defines_interfaceMethods owner rest.stream u).bind fun last v more => ?_
      exact ((passesTerm_of_name? [] named).trans passed.inside).trans (between.trans more)
termination_by 5 * stream.size

theorem defines_functionType (stream : Stream) (s : Session) :
    (functionType stream).Writes setup Defines
      (fun past _ => PassesTerm Symbol.separators stream past.stream) s := by
  rw [functionType]
  refine writes_eat fun first word => ?_
  have shorter := first.lt.2
  refine (defines_signature .empty first.stream s).bind fun past t passed => ?_
  exact defines_newType _ ((passesTerm_of_skip? word rfl rfl).trans passed)
termination_by 5 * stream.size

theorem defines_typedNames (capacity : Nat) (stream : Stream) (s : Session) :
    (typedNames capacity stream).Writes setup Defines
      (fun past _ => PassesTerm [] stream past.stream) s := by
  rw [typedNames]
  refine writes_ofExcept fun names listed => ?_
  have shorter := names.lt.2
  refine writes_eat fun first colon => ?_
  have shorter' := first.lt.2
  refine (defines_typeExpression first.stream s).bind fun past t passed => ?_
  exact (DeclaredName.passesTerm_readList listed).trans
    ((passesTerm_of_skip? colon rfl rfl).trans passed.inside)
termination_by 5 * stream.size + 2

theorem defines_signature (start : Signature) (stream : Stream) (s : Session) :
    (signature start stream).Writes setup Defines
      (fun past _ => PassesTerm Symbol.separators stream past.stream) s := by
  rw [signature]
  refine writes_eat fun first opened => ?_
  have shorter := first.lt.2
  refine (defines_optionalParameters start first.stream s).bind fun rest t inside => ?_
  have within := rest.le.2
  refine writes_eat fun last closed => ?_
  have shorter' := last.lt.2
  have between := passesTerm_brackets Symbol.separators rfl opened inside closed
  dsimp only
  split
  · rename_i colon found
    have shorter'' : colon.stream.size < last.stream.size := colon.lt.2
    refine (defines_typeExpression colon.stream t).bind fun past u passed => ?_
    refine (defines_addResult _ _ _).bind fun _ v _ => ?_
    exact between.trans ((passesTerm_of_skip? found rfl rfl).trans passed)
  · exact (defines_addResult _ _ _).bind fun _ v _ => between
termination_by 5 * stream.size

theorem defines_optionalParameters (start : Signature) (stream : Stream) (s : Session) :
    (optionalParameters start stream).Writes setup Defines
      (fun rest _ => PassesTerm [] stream rest.stream) s := by
  rw [optionalParameters]
  split
  · exact (defines_parameterGroups start 0 stream s).bind fun past t passed => passed
  · exact PassesTerm.refl [] stream
termination_by 5 * stream.size + 4

theorem defines_parameterGroups (start : Signature) (defaults : Nat) (stream : Stream)
    (s : Session) :
    (parameterGroups start defaults stream).Writes setup Defines
      (fun past _ => PassesTerm [] stream past.stream) s := by
  rw [parameterGroups]
  refine (defines_typedNames maxParameters stream s).bind fun past t passed => ?_
  have shorter := past.lt.2
  refine (defines_defaultValue _ _ _ past.stream).bind fun rest u value => ?_
  have within := rest.le.2
  refine (defines_addParameters _ _ _ _).bind fun extended v _ => ?_
  have group := passed.trans value
  dsimp only
  split
  · rename_i comma found
    have shorter' := comma.lt.2
    refine (defines_parameterGroups extended _ comma.stream v).bind fun last w more => ?_
    exact group.trans ((passesTerm_of_skip? found rfl rfl).trans more)
  · exact group
termination_by 5 * stream.size + 3

end

end Action

end FrontEnd
