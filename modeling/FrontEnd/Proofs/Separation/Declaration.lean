import FrontEnd.Proofs.Separation.Assignment
import FrontEnd.Proofs.StackEffect

/-!
Declarations of types, constants and variables agree.
-/

namespace FrontEnd

open Session

namespace Action

variable {w : Twins} {s t : Session} {a b : TypeId} {stream : Stream}

/-! ### Groups -/

/-- An item is read the same in all sessions in step. -/
def AgreesOn (w : Twins) (item : (stream : Stream) → Action (Shorter stream)) : Prop :=
  ∀ s t stream, w.InStep s t → w.Agree (fun _ => SameShorter) (item stream) (item stream) s t

theorem agree_groupItems {item : (stream : Stream) → Action (Shorter stream)}
    (each : AgreesOn w item) {s t : Session} (h : w.InStep s t) (stream : Stream) :
    w.Agree (fun _ => SameKept) (groupItems item stream) (groupItems item stream) s t := by
  rw [groupItems]
  split
  · exact agree_pure h ⟨rfl, trivial⟩
  refine agree_bind (each s t stream h) fun past _ past' _ _ step same => ?_
  obtain ⟨⟨⟩, s₁, h₁⟩ := past
  obtain ⟨⟨⟩, _, _⟩ := past'
  obtain ⟨rfl, _⟩ := same
  refine agree_separator_bind fun rest => ?_
  obtain ⟨⟨⟩, s₂, h₂⟩ := rest
  have hlt := (h₂.behind h₁).2
  refine agree_bind (agree_groupItems each step s₂) fun r _ r' _ _ step same => ?_
  obtain ⟨⟨⟩, s₃, h₃⟩ := r
  obtain ⟨⟨⟩, _, _⟩ := r'
  obtain ⟨rfl, _⟩ := same
  exact agree_pure step ⟨rfl, trivial⟩
termination_by stream.size

theorem AgreesOn.group {item : (stream : Stream) → Action (Shorter stream)}
    (each : AgreesOn w item) : AgreesOn w (group item) := by
  intro s t stream h
  unfold Action.group
  split
  · exact each s t stream h
  · rename_i s₁ h₁ _
    refine agree_bind (agree_groupItems each h s₁) fun r _ r' _ _ step same => ?_
    obtain ⟨⟨⟩, s₂, h₂⟩ := r
    obtain ⟨⟨⟩, _, _⟩ := r'
    obtain ⟨rfl, _⟩ := same
    exact agree_eat_bind fun past => agree_pure step ⟨rfl, trivial⟩

theorem AgreesOn.keywordGroup {keyword : Symbol}
    {item : (stream : Stream) → Action (Shorter stream)} (each : AgreesOn w item) :
    AgreesOn w (keywordGroup keyword item) := by
  intro s t stream h
  unfold Action.keywordGroup
  refine agree_eat_bind fun past => ?_
  refine agree_bind (each.group s t _ h) fun past _ past' _ _ step same => ?_
  obtain ⟨⟨⟩, s₂, h₂⟩ := past
  obtain ⟨⟨⟩, _, _⟩ := past'
  obtain ⟨rfl, _⟩ := same
  exact agree_pure step ⟨rfl, trivial⟩

/-! ### Types and constants -/

theorem agreesOn_typeItem : AgreesOn w typeItem := by
  intro s t stream h
  unfold typeItem
  refine agree_ofExcept_bind fun past => agree_eat_bind fun past => ?_
  refine agree_bind (agree_typeExpression h _) fun past _ past' _ _ step same => ?_
  obtain ⟨a, s₃, h₃⟩ := past
  obtain ⟨b, _, _⟩ := past'
  obtain ⟨rfl, same⟩ := same
  exact agree_bind (agree_declareType step same) fun _ _ _ _ _ step _ =>
    agree_pure step ⟨rfl, trivial⟩

theorem agree_checkForwards (h : w.InStep s t) :
    w.Agree (fun _ _ _ => True) checkForwards checkForwards s t :=
  agree_of_yields h (fun _ _ => yields_checkForwards) (fun _ _ => yields_checkForwards)
    fun _ _ _ _ => trivial

theorem agreesOn_typeDeclaration : AgreesOn w typeDeclaration := by
  intro s t stream h
  unfold typeDeclaration
  refine agree_bind (agreesOn_typeItem.keywordGroup s t stream h) fun r _ r' _ _ step same => ?_
  rw [same.stream]
  split
  · exact agree_bind (agree_checkForwards step) fun _ _ _ _ _ step _ => agree_pure step same
  · exact agree_pure step same

theorem agreesOn_constantItem : AgreesOn w constantItem := by
  intro s t stream h
  unfold constantItem
  refine agree_ofExcept_bind fun past => agree_eat_bind fun past => ?_
  refine agree_bind (agree_constantExpression h _) fun r _ r' _ _ step same => ?_
  obtain ⟨⟨v, c⟩, rest, le⟩ := r
  obtain ⟨⟨u, d⟩, rest', le'⟩ := r'
  obtain ⟨rfl, same⟩ := same
  refine agree_get ?_
  exact agree_bind (agree_declare step (sameIdent_new step same.type (.constant same.value)))
    fun _ _ _ _ _ step _ => agree_pure step ⟨rfl, trivial⟩

theorem agreesOn_constantDeclaration : AgreesOn w constantDeclaration :=
  agreesOn_constantItem.keywordGroup

/-! ### Variables -/

theorem agree_declareVariables (names : List DeclaredName) {s t : Session} (h : w.InStep s t)
    (type : w.toRenumbering.types a b) :
    w.Agree (SameRoom w a) (declareVariables a names) (declareVariables b names) s t := by
  induction names generalizing s t with
  | nil => exact agree_failInternal
  | cons declared more ih =>
    unfold declareVariables
    refine agree_bind (agree_declareVariable h type) fun x _ y _ _ step room => ?_
    obtain ⟨i, p⟩ := x
    obtain ⟨j, q⟩ := y
    dsimp only
    split
    · exact agree_pure step room
    · exact ih step

theorem agree_prepareStorage (h : w.InStep s t) {p q : Payload} (room : SameRoom w a s p q) :
    w.Agree (fun s' => Option.Rel (SameSlot w a s')) (prepareStorage p) (prepareStorage q) s t := by
  obtain ⟨payload, slot⟩ := room
  cases payload with
  | global new => exact agree_pure h (.some ⟨new, slot _ rfl⟩)
  | «local» offset => exact agree_emit_bind h fun _ _ _ _ step => agree_pure step .none
  | _ => exact agree_failInternal

theorem agreesOn_variableItem : AgreesOn w variableItem := by
  intro s t stream h
  unfold variableItem
  refine agree_bind (agree_typedNames h stream) fun past _ past' _ _ step same => ?_
  obtain ⟨⟨names, a⟩, s₁, h₁⟩ := past
  obtain ⟨⟨_, b⟩, _, _⟩ := past'
  obtain ⟨rfl, rfl, type⟩ := same
  refine agree_bind (agree_declareVariables names step type) fun p _ q _ _ step room => ?_
  dsimp only
  split
  · exact agree_pure step ⟨rfl, trivial⟩
  · simp only [fail_bind]
    split
    · exact agree_fail
    refine agree_bind (agree_prepareStorage step room) fun _ _ _ _ _ step slot => ?_
    refine agree_bind (agree_assign step type slot _) fun r _ r' _ _ step same => ?_
    obtain ⟨⟨⟩, s₂, h₂⟩ := r
    obtain ⟨⟨⟩, _, _⟩ := r'
    obtain ⟨rfl, _⟩ := same
    exact agree_pure step ⟨rfl, trivial⟩

theorem agreesOn_variableDeclaration : AgreesOn w variableDeclaration :=
  agreesOn_variableItem.keywordGroup

theorem agreesOn_shortDeclaration : AgreesOn w shortDeclaration := by
  intro s t stream h
  unfold shortDeclaration
  refine agree_ofExcept_bind fun past => agree_eat_bind fun past => ?_
  refine agree_bind (agree_declareInferred h _ _) fun r _ r' _ _ step same => ?_
  obtain ⟨⟨⟩, s₂, h₂⟩ := r
  obtain ⟨⟨⟩, _, _⟩ := r'
  obtain ⟨rfl, _⟩ := same
  exact agree_pure step ⟨rfl, trivial⟩

end Action

end FrontEnd
