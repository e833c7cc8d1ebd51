import FrontEnd.Declaration
import FrontEnd.Proofs.TypeExpression.Writes
import FrontEnd.Proofs.TypeExpression.Defaults

/-!
Declarations at module scope. Initial values are folded there, so that no declaration of types,
constants or variables emits code.
-/

namespace FrontEnd

namespace Session

variable {s t u : Session}

/-- The code and the open blocks are those that there were. -/
structure KeepsCode (s t : Session) : Prop where
  code : t.code = s.code
  blocks : t.blocks = s.blocks

namespace KeepsCode

theorem refl (s : Session) : s.KeepsCode s := ⟨rfl, rfl⟩

theorem trans (h : s.KeepsCode t) (h' : t.KeepsCode u) : s.KeepsCode u :=
  ⟨h'.code.trans h.code, h'.blocks.trans h.blocks⟩

/-- Module scope is left only together with a block. -/
theorem outside (h : s.KeepsCode t) (outside : s.blocks.atModuleScope = true) :
    t.blocks.atModuleScope = true := by
  rw [h.blocks]
  exact outside

end KeepsCode

theorem Defines.keepsCode (h : s.Defines t) : s.KeepsCode t := by
  obtain ⟨types, idents, rfl⟩ := h
  exact ⟨rfl, rfl⟩

end Session

namespace Action

open Session

variable {α β : Type} {setup : Setup} {s : Session} {stream : Stream}

theorem keepsCode_bind {action : Action α} {f : α → Action β} {P : α → Session → Prop}
    {Q : β → Session → Prop} (h : action.Writes setup KeepsCode P s)
    (hf : ∀ v t, P v t → s.KeepsCode t → (f v).Writes setup KeepsCode Q t) :
    (action >>= f).Writes setup KeepsCode Q s :=
  Writes.bind (h.along .refl .trans fun _ _ => id) fun v t hv => hf v t hv.1 hv.2

/-- What changes only types and identifiers emits nothing. -/
theorem Writes.keepsCode {action : Action α} {Q : α → Session → Prop}
    (h : action.Writes setup Defines Q s) : action.Writes setup KeepsCode (fun _ _ => True) s :=
  h.mono (fun _ _ => Defines.keepsCode) fun _ _ _ => trivial

/-- At module scope an item emits nothing. -/
def EmitsNothing (setup : Setup) (item : (s : Stream) → Action (Shorter s)) : Prop :=
  ∀ (stream : Stream) (s : Session), s.blocks.atModuleScope = true →
    (item stream).Writes setup KeepsCode (fun _ _ => True) s

/-! ### Groups -/

section Groups

variable {item : (s : Stream) → Action (Shorter s)}

theorem silent_groupItems (h : EmitsNothing setup item) (stream : Stream) (s : Session)
    (outside : s.blocks.atModuleScope = true) :
    (groupItems item stream).Writes setup KeepsCode (fun _ _ => True) s := by
  rw [groupItems]
  split
  · exact trivial
  · refine keepsCode_bind (h stream s outside) fun first t _ keeps => ?_
    have shorter := first.lt.2
    refine writes_separator fun rest _ => ?_
    have within := rest.le.2
    have outside := keeps.outside outside
    exact keepsCode_bind (silent_groupItems h rest.stream t outside) fun _ _ _ _ => trivial
termination_by stream.size

theorem silent_group (h : EmitsNothing setup item) : EmitsNothing setup (group item) := by
  intro stream s outside
  unfold group
  split
  · exact h stream s outside
  · refine keepsCode_bind (silent_groupItems h _ s outside) fun _ t _ _ => ?_
    exact writes_eat fun _ _ => trivial

theorem silent_keywordGroup (h : EmitsNothing setup item) (keyword : Symbol) :
    EmitsNothing setup (keywordGroup keyword item) := by
  intro stream s outside
  unfold keywordGroup
  refine writes_eat fun first _ => ?_
  exact keepsCode_bind (silent_group h _ s outside) fun _ _ _ _ => trivial

end Groups

/-! ### Variables -/

theorem keepsCode_declare (i : Ident) :
    (declare i).Writes setup KeepsCode (fun _ _ => True) s :=
  (writes_declare fun idents => (s.defines_idents idents).keepsCode).imp fun _ _ _ => trivial

/-- At module scope a variable is a global one. -/
theorem keepsCode_allocate (outside : s.blocks.atModuleScope = true) (name : String)
    (type : TypeId) (span : Span) :
    (allocate name type span).Writes setup KeepsCode
      (fun payload _ => ∃ slot, payload = .global slot) s := by
  unfold allocate
  rw [writes_get, if_pos outside]
  exact ⟨⟨rfl, rfl⟩, _, rfl⟩

theorem keepsCode_declareVariable (outside : s.blocks.atModuleScope = true) (name : String)
    (exported : Bool) (type : TypeId) (span : Span) :
    (declareVariable name exported type span).Writes setup KeepsCode
      (fun v _ => ∃ slot, v.2 = .global slot) s := by
  unfold declareVariable
  refine keepsCode_bind (keepsCode_allocate outside name type span) fun payload t global _ => ?_
  rw [writes_newIdent]
  exact keepsCode_bind (keepsCode_declare _) fun _ _ _ _ => global

theorem keepsCode_declareVariables (outside : s.blocks.atModuleScope = true) (type : TypeId)
    (names : List DeclaredName) :
    (declareVariables type names).Writes setup KeepsCode
      (fun payload _ => ∃ slot, payload = .global slot) s := by
  induction names generalizing s with
  | nil => exact writes_failInternal
  | cons declared more ih =>
    rw [declareVariables]
    refine keepsCode_bind (keepsCode_declareVariable outside _ _ _ _) fun v t global keeps => ?_
    dsimp only
    split
    · exact global
    · exact ih (keeps.outside outside)

theorem keepsCode_setGlobal (slot : Nat) (value : Constant) :
    (setGlobal slot value).Writes setup KeepsCode (fun _ _ => True) s := by
  unfold setGlobal
  rw [writes_get]
  split
  · exact ⟨⟨rfl, rfl⟩, trivial⟩
  · exact writes_failInternal

/-- The initial value of a global variable is folded. -/
theorem keepsCode_fold (target : TypeId) (slot : Nat) (stream : Stream) :
    (fold target slot stream).Writes setup KeepsCode (fun _ _ => True) s := by
  unfold fold
  refine keepsCode_bind (defines_constantExpression stream).keepsCode fun rest t _ _ => ?_
  obtain ⟨⟨value, source⟩, s', h⟩ := rest
  rw [writes_get]
  refine writes_checkCompatible ?_
  exact keepsCode_bind (keepsCode_setGlobal slot _) fun _ _ _ _ => trivial

theorem keepsCode_inferredValue (outside : s.blocks.atModuleScope = true) (stream : Stream) :
    (inferredValue stream).Writes setup KeepsCode
      (fun rest _ => ∃ constant, rest.value.constant? = some constant) s := by
  unfold inferredValue
  rw [writes_get, if_pos outside]
  exact keepsCode_bind (defines_constantExpression stream).keepsCode fun _ _ _ _ => ⟨_, rfl⟩

theorem keepsCode_declareInferred (outside : s.blocks.atModuleScope = true)
    (declared : DeclaredName) (stream : Stream) :
    (declareInferred declared stream).Writes setup KeepsCode (fun _ _ => True) s := by
  unfold declareInferred
  refine keepsCode_bind (keepsCode_inferredValue outside stream) fun rest t known keeps => ?_
  obtain ⟨value, s', h⟩ := rest
  obtain ⟨constant, known⟩ := known
  dsimp only at known ⊢
  split
  · trivial
  · refine keepsCode_bind (keepsCode_declareVariable (keeps.outside outside) _ _ _ _) ?_
    rintro ⟨id, payload⟩ u ⟨slot, rfl⟩ _
    rw [show storeInferred (.global slot) value = setGlobal slot constant by
      unfold storeInferred; rw [known]]
    exact keepsCode_bind (keepsCode_setGlobal slot constant) fun _ _ _ _ => trivial

/-! ### Items -/

theorem silent_typeItem : EmitsNothing setup typeItem := by
  intro stream s outside
  unfold typeItem
  refine writes_ofExcept fun declared _ => writes_eat fun sign _ => ?_
  refine keepsCode_bind (defines_typeExpression _ s).keepsCode fun past t _ _ => ?_
  exact keepsCode_bind (defines_declareType _ _ _ _).keepsCode fun _ _ _ _ => trivial

theorem keepsCode_checkForwards : checkForwards.Writes setup KeepsCode (fun _ _ => True) s := by
  unfold checkForwards
  rw [writes_get]
  split
  · trivial
  · split
    · exact writes_failInternal
    · trivial

theorem silent_typeDeclaration : EmitsNothing setup typeDeclaration := by
  intro stream s outside
  unfold typeDeclaration
  have items : EmitsNothing setup _ := silent_keywordGroup silent_typeItem .typeWord
  refine keepsCode_bind (items stream s outside) fun rest t _ _ => ?_
  split
  · exact keepsCode_bind keepsCode_checkForwards fun _ _ _ _ => trivial
  · trivial

theorem silent_constantItem : EmitsNothing setup constantItem := by
  intro stream s outside
  unfold constantItem
  refine writes_ofExcept fun declared _ => writes_eat fun sign _ => ?_
  refine keepsCode_bind (defines_constantExpression _).keepsCode fun rest t _ _ => ?_
  rw [writes_newIdent]
  exact keepsCode_bind (keepsCode_declare _) fun _ _ _ _ => trivial

theorem silent_constantDeclaration : EmitsNothing setup constantDeclaration :=
  silent_keywordGroup silent_constantItem .constWord

theorem silent_variableItem : EmitsNothing setup variableItem := by
  intro stream s outside
  unfold variableItem
  refine keepsCode_bind (defines_typedNames _ stream s).keepsCode fun past t _ keeps => ?_
  refine keepsCode_bind (keepsCode_declareVariables (keeps.outside outside) _ _) ?_
  rintro payload u ⟨slot, rfl⟩ _
  dsimp only
  split
  · trivial
  · split
    · exact writes_fail
    · rw [prepareStorage, pure_bind]
      exact keepsCode_bind (keepsCode_fold _ slot _) fun _ _ _ _ => trivial

theorem silent_variableDeclaration : EmitsNothing setup variableDeclaration :=
  silent_keywordGroup silent_variableItem .varWord

theorem silent_shortDeclaration : EmitsNothing setup shortDeclaration := by
  intro stream s outside
  unfold shortDeclaration
  refine writes_ofExcept fun declared _ => writes_eat fun sign _ => ?_
  exact keepsCode_bind (keepsCode_declareInferred outside _ _) fun _ _ _ _ => trivial

/-- A constant expression changes nothing but the types, to which it appends types of strings,
whether it succeeds or fails. A declaration of types, constants or variables at module scope leaves
the code as it was. -/
theorem constants_write_no_code (setup : Setup) (s : Session) (stream : Stream) :
    (match (expression .constant stream).run setup s with
      | .ok _ t => s.AppendsTexts t
      | .error _ t => s.AppendsTexts t) ∧
    (s.blocks.atModuleScope = true →
      ∀ item ∈ [typeDeclaration, constantDeclaration, variableDeclaration, shortDeclaration],
        match (item stream).run setup s with
        | .ok _ t => t.code = s.code
        | .error _ t => t.code = s.code) := by
  constructor
  · have writes : (expression .constant stream).Writes setup (EvaluationStep .constant) _ s :=
      writes_expression .constant stream
    have related := writes.related AppendsTexts.refl AppendsTexts.trans
      fun _ _ => EvaluationStep.appendsTexts
    generalize (expression .constant stream).run setup s = result at related ⊢
    cases result with
    | ok rest t => exact related.1
    | error d t => exact related
  · intro outside item hm
    have silent : EmitsNothing setup item := by
      simp only [List.mem_cons, List.not_mem_nil, or_false] at hm
      rcases hm with rfl | rfl | rfl | rfl
      · exact silent_typeDeclaration
      · exact silent_constantDeclaration
      · exact silent_variableDeclaration
      · exact silent_shortDeclaration
    have related := (silent stream s outside).related .refl .trans fun _ _ => id
    generalize (item stream).run setup s = result at related ⊢
    cases result with
    | ok rest t => exact related.1.code
    | error d t => exact related.code

/-- The words `var x: str = "a" + "b"`. -/
def greetingStream : Stream where
  ahead := [.symbol .varWord, .ident "x", .symbol .colon, .symbol .strWord, .symbol .assign,
    .text "a", .symbol (.operator .add), .text "b"].map .first
  finish := ⟨.origin, .origin⟩
  index := 0

/-- The value of a global string is folded without code. -/
theorem greeting_writes_no_code :
    let s := Session.initial namesakeProgram.settings
    s ∈ history namesakeProgram "main.um" ∧ s.blocks.atModuleScope = true ∧
      ∃ rest t, (variableDeclaration greetingStream).run namesakeProgram s = .ok rest t ∧
        t.globals.size = 1 ∧ t.types.size = s.types.size + 3 ∧ t.code = s.code := by
  refine ⟨List.mem_cons_self, rfl, ?_⟩
  have checked : ∃ p ∈ (variableDeclaration greetingStream).outcome? namesakeProgram
      (.initial namesakeProgram.settings), p.2.globals.size = 1 ∧
        p.2.types.size = (Session.initial namesakeProgram.settings).types.size + 3 := by
    decide +kernel
  obtain ⟨⟨rest, t⟩, found, globals, types⟩ := checked
  have run := yields_of_outcome? found
  have silent := (constants_write_no_code namesakeProgram (.initial namesakeProgram.settings)
    greetingStream).2 rfl variableDeclaration (by simp)
  rw [show (variableDeclaration greetingStream).run _ _ = .ok rest t from run] at silent
  exact ⟨rest, t, run, globals, types, silent⟩

end Action

end FrontEnd
