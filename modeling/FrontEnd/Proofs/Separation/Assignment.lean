import FrontEnd.Proofs.Separation.TypeExpression

/-!
Assignments agree. What is stored on both sides is of types that stand for each other, and initial
values are the same.
-/

namespace FrontEnd

open Session

theorem Session.IsSlot.grows {s t : Session} {slot : Nat} {type : TypeId} (h : s.IsSlot slot type)
    (g : s.Grows t) : t.IsSlot slot type := by
  obtain ⟨x, hx, rfl⟩ := h
  obtain ⟨value?, hy⟩ := g.globals slot x hx
  exact ⟨_, hy, rfl⟩

namespace Action

variable {w : Twins} {s t : Session} {a b : TypeId} {stream : Stream}

theorem SameRoom.grows {p q : Payload} (h : SameRoom w a s p q) {s' : Session} (g : s.Grows s') :
    SameRoom w a s' p q :=
  ⟨h.payload, fun slot hp => (h.slot slot hp).grows g⟩

/-- The same slot of a variable of a type. -/
structure SameSlot (w : Twins) (type : TypeId) (s : Session) (m n : Nat) : Prop where
  slots : w.toRenumbering.slots m n
  slot : s.IsSlot m type

theorem agree_fold (h : w.InStep s t) (target : w.toRenumbering.types a b) {m n : Nat}
    (slot : SameSlot w a s m n) (stream : Stream) :
    w.Agree (fun _ => SameKept) (fold a m stream) (fold b n stream) s t := by
  unfold fold
  refine agree_bind (agree_constantExpression h stream) fun r s' r' t' read step same => ?_
  obtain ⟨⟨v, c⟩, rest, le⟩ := r
  obtain ⟨⟨u, d⟩, rest', le'⟩ := r'
  obtain ⟨rfl, same⟩ := same
  have same := sameConstant_widen step target same
  refine agree_get (agree_checkCompatible_bind fun compatible => ?_)
  have value := sameValue_of_compatible step compatible same.kind same.value
  exact agree_bind (agree_setGlobal step slot.slots (slot.slot.grows read.grows) value)
    fun _ _ _ _ _ step _ => agree_pure step ⟨rfl, trivial⟩

theorem agree_widenOnStack (h : w.InStep s t) {c d : TypeId} (target : w.toRenumbering.types a b)
    (source : w.toRenumbering.types c d) :
    w.Agree (fun _ => w.toRenumbering.types) (widenOnStack a c) (widenOnStack b d) s t := by
  unfold widenOnStack
  refine agree_get ?_
  rw [h.widens target source]
  split
  · exact agree_emit_bind h fun _ _ _ _ step => agree_pure step target
  · exact agree_pure h source

theorem agree_runtimeValue (h : w.InStep s t) (target : w.toRenumbering.types a b)
    (stream : Stream) :
    w.Agree (fun _ => SameKept) (runtimeValue a stream) (runtimeValue b stream) s t := by
  unfold runtimeValue
  refine agree_bind (agree_expression h stream) fun r _ r' _ _ step same => ?_
  obtain ⟨v, rest, le⟩ := r
  obtain ⟨u, rest', le'⟩ := r'
  obtain ⟨rfl, same⟩ := same
  refine agree_bind (agree_widenOnStack step target same.type) fun _ _ _ _ _ step _ => ?_
  exact agree_checkCompatible_bind fun _ => agree_pure step ⟨rfl, trivial⟩

theorem agree_store (h : w.InStep s t) (target : w.toRenumbering.types a b) (stream : Stream) :
    w.Agree (fun _ => SameKept) (store a stream) (store b stream) s t := by
  unfold store
  exact agree_bind (agree_runtimeValue h target stream) fun _ _ _ _ _ step same =>
    agree_emit_bind step fun _ _ _ _ step => agree_pure step same

theorem agree_assign (h : w.InStep s t) (target : w.toRenumbering.types a b) {m n : Option Nat}
    (slot : Option.Rel (SameSlot w a s) m n) (stream : Stream) :
    w.Agree (fun _ => SameKept) (assign a m stream) (assign b n stream) s t := by
  cases slot with
  | some slot => exact agree_fold h target slot stream
  | none => exact agree_store h target stream

theorem agree_inferredValue (h : w.InStep s t) (stream : Stream) :
    w.Agree (fun _ => SameRest (SameTyped w .constant)) (inferredValue stream)
      (inferredValue stream) s t := by
  unfold inferredValue
  refine agree_get ?_
  rw [h.atModuleScope]
  split
  · refine agree_bind (agree_constantExpression h stream) fun r _ r' _ _ step same => ?_
    obtain ⟨⟨v, c⟩, rest, le⟩ := r
    obtain ⟨⟨u, d⟩, rest', le'⟩ := r'
    obtain ⟨rfl, same⟩ := same
    exact agree_pure step ⟨rfl, same.type, fun _ => .some same.value⟩
  · refine agree_bind (agree_expression h stream) fun r _ r' _ _ step same => ?_
    obtain ⟨v, rest, le⟩ := r
    obtain ⟨u, rest', le'⟩ := r'
    obtain ⟨rfl, same⟩ := same
    exact agree_pure step ⟨rfl, same.type, fun _ => .none⟩

theorem agree_storeInferred (h : w.InStep s t) {v u : TypedValue} (same : SameTyped w .constant v u)
    {p q : Payload} (room : SameRoom w v.type s p q) :
    w.Agree (fun _ _ _ => True) (storeInferred p v) (storeInferred q u) s t := by
  obtain ⟨payload, slot⟩ := room
  have constant := same.constant rfl
  unfold storeInferred
  generalize v.constant? = c at constant ⊢
  generalize u.constant? = d at constant ⊢
  cases payload with
  | global new =>
    cases constant with
    | some value => exact agree_setGlobal h new (slot _ rfl) value
    | none => exact agree_failInternal
  | «local» offset =>
    cases constant with
    | some value => exact agree_failInternal
    | none =>
      exact agree_emit_bind h fun _ _ _ _ step => agree_emit_bind step fun _ _ _ _ step =>
        agree_pure step trivial
  | _ => exact agree_failInternal

/-- A type is named where it does not fit. -/
theorem not_passes_misfit {α β : Type} {cause : String → Cause} {type : TypeId} {span : Span}
    {f : α → Action β} {v : β} {run : List Session} {setup : Setup} :
    ¬ ((typeName type >>= fun name => fail (cause name) span >>= f) : Action β).PassesIn setup run s
      v t := by
  intro failed
  obtain ⟨_, _, _, failed⟩ := passes_bind failed
  rw [fail_bind] at failed
  exact not_passes_fail failed

theorem agree_declareInferred (h : w.InStep s t) (declared : DeclaredName) (stream : Stream) :
    w.Agree (fun _ => SameKept) (declareInferred declared stream)
      (declareInferred declared stream) s t := by
  unfold declareInferred
  refine agree_bind (agree_inferredValue h stream) fun r _ r' _ _ step same => ?_
  obtain ⟨v, rest, le⟩ := r
  obtain ⟨u, rest', le'⟩ := r'
  obtain ⟨rfl, same⟩ := same
  dsimp only
  split
  · exact agree_of_not_left fun _ _ => not_passes_misfit
  split
  · exact agree_of_not_right fun _ _ => not_passes_misfit
  refine agree_bind (agree_declareVariable step same.type) fun x _ y _ _ step room => ?_
  obtain ⟨i, p⟩ := x
  obtain ⟨j, q⟩ := y
  exact agree_bind (agree_storeInferred step same room) fun _ _ _ _ _ step _ =>
    agree_pure step ⟨rfl, trivial⟩

theorem agree_assignment (h : w.InStep s t) (stream : Stream) :
    w.Agree (fun _ => SameShorter) (assignment stream) (assignment stream) s t := by
  unfold assignment
  refine agree_bind (agree_reference h stream) fun past _ past' _ _ step same => ?_
  obtain ⟨⟨i, x⟩, rest, lt⟩ := past
  obtain ⟨⟨j, y⟩, rest', lt'⟩ := past'
  obtain ⟨rfl, same⟩ := same
  dsimp only
  cases address? x with
  | none => exact agree_fail
  | some address =>
    cases address? y with
    | none => exact agree_of_not_right fun _ _ => not_passes_fail
    | some address' =>
      refine agree_emit_bind step fun _ _ _ _ step => agree_eat_bind fun past => ?_
      refine agree_bind (agree_store step same.ident.type _) fun r _ r' _ _ step same => ?_
      obtain ⟨⟨⟩, rest, le⟩ := r
      obtain ⟨⟨⟩, rest', le'⟩ := r'
      obtain ⟨rfl, _⟩ := same
      exact agree_pure step ⟨rfl, trivial⟩

end Action

end FrontEnd
